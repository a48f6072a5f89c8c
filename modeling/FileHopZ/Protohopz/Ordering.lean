import FileHopZ.Library.Run
import FileHopZ.Protohopz.Moves
import FileHopZ.Protohopz.ReceiveChunks

/-! # What a session puts in order

`Putting queued due ordered s` says of a session that has put the packets
`ordered` in order that these carry the numbers 1, 2, 3, ..., that the `DATA`
packets the transport has queued satisfy `queued`, and that those in the reorder
buffer and in `ordered` satisfy `due`.  It holds along every run on any
network, for any two predicates for which `receive_loop` queues only packets that
satisfy the first and `receive_chunks_loop` takes only packets that satisfy the
second (`Putting.step`).
-/
namespace FileHopZ
namespace ProtoStream
variable {P : Primitives}

/-- The packet that `receive_chunks_loop` goes on with. -/
def taken (s : ProtoStream P) : Event P → Option ReceivedPacket
  | .resumeReceiveChunks => (s.transport.receivedPacketsQueue.resume .chunks).map Prod.fst
  | _ => none

theorem mem_taken {s : ProtoStream P} {e : Event P} {r : ReceivedPacket} (h : r ∈ taken s e) :
    ∃ queue, s.transport.receivedPacketsQueue.resume .chunks = some (r, queue) := by
  cases e with
  | resumeReceiveChunks =>
      obtain ⟨⟨q, queue⟩, hq, rfl⟩ := Option.map_eq_some_iff.mp h
      exact ⟨queue, hq⟩
  | _ => cases h

/-- The packets put in order, in their order. -/
def ordered (out : List Observation) : List ReceivedPacket :=
  out.filterMap fun
    | .pushed _ source => source
    | _ => none

/-- The packets registered in `in_flight_`, each with its plaintext. -/
def registrations (out : List Observation) : List (Packet × Bytes) :=
  out.filterMap fun
    | .transport (.registered _ packet plaintext) => some (packet, plaintext)
    | _ => none

/-- The datagrams given to the socket. -/
def emitted (out : List Observation) : List (Endpoint × Bytes) :=
  out.filterMap fun
    | .transport (.transmitted destination bytes) => some (destination, bytes)
    | _ => none

/-- The chunks pushed to `ready_chunks_`. -/
def chunks (out : List Observation) : List Chunk :=
  out.filterMap fun
    | .pushed chunk _ => some chunk
    | _ => none

@[simp] theorem ordered_append (a b : List Observation) :
    ordered (a ++ b) = ordered a ++ ordered b := List.filterMap_append
@[simp] theorem registrations_append (a b : List Observation) :
    registrations (a ++ b) = registrations a ++ registrations b := List.filterMap_append
@[simp] theorem emitted_append (a b : List Observation) :
    emitted (a ++ b) = emitted a ++ emitted b := List.filterMap_append
@[simp] theorem chunks_append (a b : List Observation) :
    chunks (a ++ b) = chunks a ++ chunks b := List.filterMap_append
@[simp] theorem ordered_nil : ordered [] = [] := rfl
@[simp] theorem registrations_nil : registrations [] = [] := rfl
@[simp] theorem emitted_nil : emitted [] = [] := rfl
@[simp] theorem chunks_nil : chunks [] = [] := rfl

theorem ordered_transport (shown : List FileHopZ.Observation) :
    ordered (shown.map .transport) = [] := by
  simp [ordered]

@[simp] theorem ordered_chunks (pushed : List ReceivedPacket) :
    ordered (pushed.map .chunk) = pushed := by
  simp [ordered, List.filterMap_map, Function.comp_def, Observation.chunk]

@[simp] theorem registrations_chunks (pushed : List ReceivedPacket) :
    registrations (pushed.map .chunk) = [] := by
  simp [registrations, List.filterMap_map, Function.comp_def, Observation.chunk]

@[simp] theorem emitted_chunks (pushed : List ReceivedPacket) :
    emitted (pushed.map .chunk) = [] := by
  simp [emitted, List.filterMap_map, Function.comp_def, Observation.chunk]

theorem ordered_quiet {out : List Observation} (h : ∀ o ∈ out, o.isQuiet = true) :
    ordered out = [] := by
  refine List.filterMap_eq_nil_iff.mpr fun o ho => ?_
  have := h o ho
  cases o with
  | pushed chunk source => cases source <;> simp_all [Observation.isQuiet]
  | _ => rfl

theorem registrations_quiet {out : List Observation} (h : ∀ o ∈ out, o.isQuiet = true) :
    registrations out = [] := by
  refine List.filterMap_eq_nil_iff.mpr fun o ho => ?_
  have := h o ho
  cases o with
  | transport o => simp [Observation.isQuiet] at this
  | _ => rfl

theorem emitted_quiet {out : List Observation} (h : ∀ o ∈ out, o.isQuiet = true) :
    emitted out = [] := by
  refine List.filterMap_eq_nil_iff.mpr fun o ho => ?_
  have := h o ho
  cases o with
  | transport o => simp [Observation.isQuiet] at this
  | _ => rfl

theorem mem_registrations {out : List Observation} {packet : Packet} {plaintext : Bytes} :
    (packet, plaintext) ∈ registrations out ↔
      ∃ i, .transport (.registered i packet plaintext) ∈ out := by
  simp only [registrations, List.mem_filterMap]
  constructor
  · rintro ⟨o, ho, heq⟩
    split at heq
    · rename_i i packet' plaintext'
      obtain ⟨rfl, rfl⟩ := Prod.mk.inj (Option.some.inj heq)
      exact ⟨i, ho⟩
    · cases heq
  · rintro ⟨i, hi⟩
    exact ⟨_, hi, rfl⟩

theorem mem_emitted {out : List Observation} {destination : Endpoint} {bytes : Bytes} :
    (destination, bytes) ∈ emitted out ↔
      .transport (.transmitted destination bytes) ∈ out := by
  simp only [emitted, List.mem_filterMap]
  constructor
  · rintro ⟨o, ho, heq⟩
    split at heq
    · obtain ⟨rfl, rfl⟩ := Prod.mk.inj (Option.some.inj heq)
      exact ho
    · cases heq
  · intro h
    exact ⟨_, h, rfl⟩

/-- The invariant of what a session puts in order. -/
structure Putting (queued due : ReceivedPacket → Prop) (put : List ReceivedPacket)
    (s : ProtoStream P) : Prop where
  queue : ∀ r ∈ s.transport.receivedPacketsQueue.contents, r.packet.header.type = .data → queued r
  inOrder : InOrder s.expectedSequence s.packetsBuffer
  buffer : ∀ k r, s.packetsBuffer.lookup k = some r → due r
  settled : ∀ r ∈ put, r.packet.header.type = .data ∧ due r
  numbers : put.map (·.packet.header.sequence.toNat) = List.range' 1 put.length
  next : s.expectedSequence.toNat = 1 + put.length

/-- What a step adds to the queue. -/
theorem queued_of_queueStep {encrypted : Bool} {context : CryptoContext P} {e : ProtoHopZ.Event P}
    {queue queue' : AsyncQueue Consumer ReceivedPacket} {received received' : Finset UInt32}
    (h : ProtoHopZ.QueueStep encrypted context e queue received queue' received')
    {r : ReceivedPacket} (hr : r ∈ queue'.contents) (htype : r.packet.header.type = .data) :
    r ∈ queue.contents ∨ ∃ remote buffer bytes now fault,
      e = .datagram remote buffer bytes now fault ∧
        (buffer.receiveFrom bytes).header.size.toNat ≤ packetSize ∧
        ProtoHopZ.Accepts encrypted context (buffer.receiveFrom bytes) r := by
  cases h with
  | same | cancel => exact Or.inl hr
  | pop consumer =>
      rw [AsyncQueue.contents_pop] at hr
      exact Or.inl hr
  | take consumer he htake => exact Or.inl ((AsyncQueue.mem_contents_resume htake r).mpr (Or.inr hr))
  | ended sequence =>
      rcases (AsyncQueue.mem_contents_push _ _ _).mp hr with rfl | hr
      · cases htype
      · exact Or.inl hr
  | accept he hsize hnew haccepts =>
      rcases (AsyncQueue.mem_contents_push _ _ _).mp hr with rfl | hr
      · exact Or.inr ⟨_, _, _, _, _, he, hsize, haccepts⟩
      · exact Or.inl hr

/-- Predicates that grow keep what was put in order. -/
theorem Putting.mono {queued queued' due due' : ReceivedPacket → Prop} {put : List ReceivedPacket}
    {s : ProtoStream P} (h : Putting queued due put s) (hq : ∀ r, queued r → queued' r)
    (hd : ∀ r, due r → due' r) : Putting queued' due' put s where
  queue r hr htype := hq r (h.queue r hr htype)
  inOrder := h.inOrder
  buffer k r hk := hd r (h.buffer k r hk)
  settled r hr := ⟨(h.settled r hr).1, hd r (h.settled r hr).2⟩
  numbers := h.numbers
  next := h.next

/-- **The step lemma** of what a session puts in order. -/
theorem Putting.step {queued due : ReceivedPacket → Prop} {put : List ReceivedPacket}
    {s s' : ProtoStream P} {e : Event P} {out : List Observation} (h : Putting queued due put s)
    (hs : Moves s e s' out)
    (haccept : ∀ remote buffer bytes now fault r,
      e = .transport (.datagram remote buffer bytes now fault) →
      (buffer.receiveFrom bytes).header.size.toNat ≤ packetSize →
      ProtoHopZ.Accepts s.transport.connectionEncrypted s.transport.cryptoContext
        (buffer.receiveFrom bytes) r → r.packet.header.type = .data → queued r)
    (htakes : ∀ r ∈ taken s e, s.transport.loopError = none →
      Takes s.expectedSequence s.packetsBuffer r → queued r → due r) :
    Putting queued due (put ++ ordered out) s' := by
  cases hs with
  | transport e' shown heffect hdatagram hsend hhandshake hshakes hstop htake hexpected hbuffer hout =>
      have hnone : ordered out = [] := by
        rcases hout with rfl | ⟨-, hquiet⟩
        · exact ordered_transport shown
        · exact ordered_quiet hquiet
      rw [hnone, List.append_nil]
      refine ⟨fun r hr htype => ?_, ?_, ?_, h.settled, h.numbers, ?_⟩
      · rcases queued_of_queueStep heffect.queue hr htype with hr | ⟨_, _, _, _, _, he, hsize, hacc⟩
        · exact h.queue r hr htype
        · exact haccept _ _ _ _ _ r (he ▸ hdatagram _ _ _ _ _ he) hsize hacc htype
      · rw [hexpected, hbuffer]
        exact h.inOrder
      · rw [hbuffer]
        exact h.buffer
      · rw [hexpected]
        exact h.next
  | chunk he r queue queue' htake hqueue htransport hout =>
      have hcontents : ∀ q ∈ s'.transport.receivedPacketsQueue.contents,
          q ∈ s.transport.receivedPacketsQueue.contents := by
        intro q hq
        rw [htransport] at hq
        refine (AsyncQueue.mem_contents_resume htake q).mpr (Or.inr ?_)
        rcases hqueue with rfl | rfl
        · exact hq
        · rwa [AsyncQueue.contents_pop] at hq
      have hmem : r ∈ s.transport.receivedPacketsQueue.contents :=
        (AsyncQueue.mem_contents_resume htake r).mpr (Or.inl rfl)
      have htaken : r ∈ taken s e := by
        rw [he, taken, htake]
        rfl
      rcases hout with ⟨-, rfl, hexpected, hbuffer⟩ | ⟨hloop, rfl, hexpected, hbuffer⟩
      · rw [ordered_nil, List.append_nil]
        refine ⟨fun q hq => h.queue q (hcontents q hq), ?_, ?_, h.settled, h.numbers, ?_⟩
        · rw [hexpected, hbuffer]
          exact h.inOrder
        · rw [hbuffer]
          exact h.buffer
        · rw [hexpected]
          exact h.next
      · have hspec := receiveChunk_spec h.inOrder r
        have hdue : ∀ q, q = r ∧ Takes s.expectedSequence s.packetsBuffer r ∨
            (∃ k, s.packetsBuffer.lookup k = some q) → q.packet.header.type = .data ∧ due q := by
          rintro q (⟨rfl, ht⟩ | ⟨k, hk⟩)
          · exact ⟨ht.1, htakes q htaken hloop ht (h.queue q hmem ht.1)⟩
          · exact ⟨h.inOrder.data k q hk, h.buffer k q hk⟩
        rw [ordered_chunks]
        refine ⟨fun q hq => h.queue q (hcontents q hq), ?_, ?_, ?_, ?_, ?_⟩
        · rw [hexpected, hbuffer]
          exact hspec.inOrder
        · intro k q hk
          rw [hbuffer] at hk
          exact (hdue q ((hspec.kept k q hk).imp id fun h => ⟨k, h⟩)).2
        · intro q hq
          rcases List.mem_append.mp hq with hq | hq
          · exact h.settled q hq
          · exact hdue q (hspec.source q hq)
        · rw [List.map_append, h.numbers, hspec.numbers, h.next, List.length_append,
            List.range'_append_1]
        · rw [hexpected, hspec.next, h.next, List.length_append, Nat.add_assoc]

/-- The chunk of every packet put in order carries the packet's bytes, and the
only other chunks are the empty ones of `store_stream_error`. -/
theorem Moves.chunks {s s' : ProtoStream P} {e : Event P} {out : List Observation}
    (hs : Moves s e s' out) :
    (chunks out).filter (fun c => !c.empty) = (ordered out).map (Chunk.ofPacket ·.packet) := by
  have hpushed : ∀ pushed : List ReceivedPacket,
      (ProtoStream.chunks (pushed.map .chunk)).filter (fun c => !c.empty) =
        pushed.map (Chunk.ofPacket ·.packet) := by
    intro pushed
    have hmap : ProtoStream.chunks (pushed.map .chunk) = pushed.map (Chunk.ofPacket ·.packet) := by
      simp [ProtoStream.chunks, List.filterMap_map, Function.comp_def, Observation.chunk]
    rw [hmap, List.filter_eq_self]
    intro c hc
    obtain ⟨r, -, rfl⟩ := List.mem_map.mp hc
    simp
  have hquiet : ∀ o ∈ out, o.isQuiet = true →
      ∀ c source, o = .pushed c source → c.empty = true := by
    rintro o - ho c source rfl
    cases source with
    | none => exact ho
    | some r => cases ho
  cases hs with
  | transport e' shown heffect hdatagram hsend hhandshake hshakes hstop htake hexpected hbuffer hout =>
      rcases hout with rfl | ⟨-, hout⟩
      · rw [ordered_transport]
        simp [ProtoStream.chunks]
      · rw [ordered_quiet hout, List.map_nil, List.filter_eq_nil_iff]
        intro c hc
        obtain ⟨o, ho, heq⟩ := List.mem_filterMap.mp hc
        split at heq
        · rename_i chunk source
          rw [← Option.some.inj heq, hquiet _ ho (hout _ ho) chunk source rfl]
          simp
        · cases heq
  | chunk he r queue queue' htake hqueue htransport hout =>
      rcases hout with ⟨-, rfl, -⟩ | ⟨-, rfl, -⟩
      · rfl
      · rw [hpushed, ordered_chunks]

/-! ## What `receive` returns -/

/-- `ready_chunks_` grows by the chunks pushed, and `receive` returns what it holds. -/
theorem readyChunks_step {s s' : ProtoStream P} {e : Event P} {out : List Observation}
    (hs : s.step e = some (s', out)) :
    (∀ c ∈ s'.readyChunks.contents, c ∈ s.readyChunks.contents ∨ c ∈ chunks out) ∧
      ∀ i c, .received i (.ok c) ∈ out → c ∈ s.readyChunks.contents := by
  have hpushes : ∀ (pushed : List ReceivedPacket) (ready : AsyncQueue Nat Chunk),
      ∀ c ∈ (pushed.foldl pushChunk ready).contents,
        c ∈ ready.contents ∨ c ∈ chunks (pushed.map .chunk) := by
    intro pushed
    induction pushed with
    | nil => exact fun ready c hc => Or.inl hc
    | cons r pushed ih =>
        intro ready c hc
        rcases ih _ c hc with hc | hc
        · rcases (AsyncQueue.mem_contents_push _ _ _).mp hc with rfl | hc
          · exact Or.inr List.mem_cons_self
          · exact Or.inl hc
        · exact Or.inr (List.mem_cons_of_mem _ hc)
  -- what `receive` returns has been taken out
  have htaken : ∀ {i : Nat} {chunk : Chunk} {queue : AsyncQueue Nat Chunk},
      s.readyChunks.resume i = some (chunk, queue) → chunk ∈ s.readyChunks.contents ∧
        ∀ c ∈ queue.contents, c ∈ s.readyChunks.contents := by
    intro i chunk queue htake
    have hmem := AsyncQueue.mem_contents_resume htake
    exact ⟨(hmem chunk).mpr (Or.inl rfl), fun c hc => (hmem c).mpr (Or.inr hc)⟩
  cases step_cases hs with
  | receive => exact ⟨fun c hc => Or.inl (by rwa [AsyncQueue.contents_pop] at hc), by simp⟩
  | failed _ _ _ _ htake =>
      exact ⟨fun c hc => Or.inl ((htaken htake).2 c hc), by simp⟩
  | received _ _ _ htake =>
      refine ⟨fun c hc => Or.inl ((htaken htake).2 c hc), fun j c hc => ?_⟩
      obtain ⟨-, heq⟩ := Observation.received.inj (List.mem_singleton.mp hc)
      exact Except.ok.inj heq ▸ (htaken htake).1
  | chunk | lastChunk => exact ⟨hpushes _ _, by simp [Observation.chunk]⟩
  | stored =>
      refine ⟨fun c hc => ?_, by simp⟩
      rcases (AsyncQueue.mem_contents_push _ _ _).mp hc with rfl | hc
      · exact Or.inr List.mem_cons_self
      · exact Or.inl hc
  | transport | callStartLoops | unstarted | started | rejected | send | refused | interrupted
  | aborted | ended | close | resumeClose | finishClose =>
      exact ⟨fun c hc => Or.inl hc, by simp⟩

/-! ## The recorded error -/

/-- A session that has been started keeps the error it has recorded, and the empty
chunk is pushed only with one. -/
theorem streamError_step {s s' : ProtoStream P} {e : Event P} {out : List Observation}
    (hs : s.step e = some (s', out)) (hstarted : s.startLoops ≠ .idle) :
    s'.startLoops ≠ .idle ∧ (s.streamError ≠ none → s'.streamError = s.streamError) ∧
      (s'.streamError = none → ∀ c ∈ chunks out, c.empty = false) := by
  cases step_cases hs with
  | callStartLoops _ _ _ _ hidle => exact absurd hidle hstarted
  | unstarted | started => exact ⟨by simp [awaitPacket], fun _ => rfl, by simp⟩
  | chunk | lastChunk =>
      refine ⟨hstarted, fun _ => rfl, fun _ c hc => ?_⟩
      simp only [chunks, List.filterMap_map, List.mem_filterMap] at hc
      obtain ⟨r, -, heq⟩ := hc
      cases heq
      simp
  | stored _ _ hnone =>
      exact ⟨hstarted, fun h => absurd hnone h, fun h => by cases h⟩
  | transport | rejected | send | refused | receive | failed | received | interrupted | aborted
  | ended | close | resumeClose | finishClose =>
      exact ⟨hstarted, fun _ => rfl, by simp [chunks]⟩

end ProtoStream
end FileHopZ
