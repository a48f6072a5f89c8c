import FileHopZ.Dialogue.Sends

/-! # What a program receives

A program that makes one call at a time is the only one suspended in `ready_chunks_.pop`.  So
what its calls of `receive` return is what has been pushed, in its order and once each, up to
the error that ends the stream.
-/
namespace FileHopZ

/-- The call of `receive` that a program is in. -/
def ProgramFrame.receiver : ProgramFrame → List Nat
  | .receiving i => [i]
  | _ => []

/-- The chunk that a call has returned, as long as the program has not gone on with it. -/
def ProgramFrame.held : ProgramFrame → List Chunk
  | .returned (.received (.ok chunk)) => [chunk]
  | _ => []

namespace Dialogue
variable {P : Primitives} {program : Role → Program}
open ProtoStream

/-- The chunks that calls of `receive` have returned. -/
def received (out : List ProtoStream.Observation) : List Chunk :=
  out.filterMap fun
    | .received _ (.ok chunk) => some chunk
    | _ => none

@[simp] theorem received_append (a b : List ProtoStream.Observation) :
    received (a ++ b) = received a ++ received b := List.filterMap_append
@[simp] theorem received_nil : received [] = [] := rfl

@[simp] theorem received_transport (shown : List FileHopZ.Observation) :
    received (shown.map .transport) = [] := by
  simp [received]

@[simp] theorem received_chunks (pushed : List ReceivedPacket) :
    received (pushed.map .chunk) = [] := by
  simp [received, List.filterMap_map, Function.comp_def, ProtoStream.Observation.chunk]

/-- What a program has received, and what is ready for it. -/
structure Gets (call : ProgramFrame) (pushed got : List Chunk) (s : ProtoStream P) : Prop where
  orderly : s.readyChunks.Orderly
  pending : s.readyChunks.pending = call.receiver
  ready : s.streamError = none → pushed = got ++ s.readyChunks.contents
  first : got <+: pushed.filter fun c => !c.empty
  unstarted : s.startLoops = .idle → s.streamError = none

theorem gets_construct (peer : Endpoint) (mode : Role) :
    Gets .idle [] [] (ProtoStream.construct P peer mode) where
  orderly := AsyncQueue.orderly_empty
  pending := rfl
  ready _ := rfl
  first := List.prefix_rfl
  unstarted _ := rfl

/-- The chunks of packets are pushed one after the other. -/
theorem orderly_pushes (pushed : List ReceivedPacket) {ready : AsyncQueue Nat Chunk}
    (h : ready.Orderly) : (pushed.foldl pushChunk ready).Orderly ∧
      (pushed.foldl pushChunk ready).pending = ready.pending ∧
      (pushed.foldl pushChunk ready).contents =
        ready.contents ++ ProtoStream.chunks (pushed.map .chunk) := by
  induction pushed generalizing ready with
  | nil => exact ⟨h, rfl, (List.append_nil _).symm⟩
  | cons r pushed ih =>
      obtain ⟨horderly, hpending, hcontents⟩ := h.push (.ofPacket r.packet)
      obtain ⟨horderly', hpending', hcontents'⟩ := ih horderly
      refine ⟨horderly', hpending'.trans hpending, hcontents'.trans ?_⟩
      rw [hcontents, List.append_assoc]
      rfl

/-- What has been received is a first part of what has been pushed, whatever else is. -/
theorem prefix_pushed {got pushed : List Chunk}
    (h : got <+: pushed.filter fun c => !c.empty) (more : List Chunk) :
    got <+: (pushed ++ more).filter fun c => !c.empty := by
  rw [List.filter_append]
  exact h.trans (List.prefix_append _ _)

section Step
variable {call : ProgramFrame} {request : Request} {s s' : ProtoStream P} {e : ProtoStream.Event P}
  {pushed got : List Chunk} {shown : List ProtoStream.Observation} {start : StartFrame}

/-- A call of `receive` begins and ends by its own events. -/
theorem receiver_advance (hadmits : admits call request e = true)
    (hreceive : ∀ i, e ≠ .receive i) (hshown : ∀ i result, .received i result ∉ shown) :
    (advance call request e start shown).receiver = call.receiver := by
  by_cases hcall : ∃ i, call = .receiving i
  · obtain ⟨i, rfl⟩ := hcall
    have hno := not_isCall hadmits (Or.inl (by simp))
    rw [advance_eq hno (by simp)]
    have hfind : shown.findSome? (responseIn (.receiving i)) = none := by
      rw [List.findSome?_eq_none_iff]
      intro o ho
      cases o with
      | received j result => exact absurd ho (hshown j result)
      | _ => rfl
    rw [hfind]
  · have hnone : ∀ c : ProgramFrame, (∀ i, c ≠ .receiving i) → c.receiver = [] := by
      intro c hc
      cases c with
      | receiving i => exact absurd rfl (hc i)
      | _ => rfl
    rw [hnone call fun i hi => hcall ⟨i, hi⟩]
    have hbegun : ∀ i, begun call e ≠ .receiving i := by
      intro i hi
      cases e with
      | receive j => exact hreceive j rfl
      | callStartLoops | send | close => cases hi
      | _ => exact hcall ⟨i, hi⟩
    unfold advance
    split
    · split
      · rfl
      · rfl
      · rfl
    · split
      · rfl
      · exact hnone _ hbegun

/-- A call of `receive` returns a chunk by the observation of it only. -/
theorem held_advance (hadmits : admits call request e = true)
    (hshown : ∀ i chunk, .received i (.ok chunk) ∉ shown) :
    (advance call request e start shown).held = call.held := by
  have hresponse : ∀ c r, shown.findSome? (responseIn c) = some r →
      (ProgramFrame.returned r).held = [] := by
    intro c r hr
    obtain ⟨o, ho, hr⟩ := List.exists_of_findSome?_eq_some hr
    unfold responseIn at hr
    split at hr
    · split_ifs at hr
      cases hr
      rfl
    · split_ifs at hr
      cases hr
      rfl
    · rename_i result _
      split_ifs at hr
      cases hr
      cases result with
      | error ec => rfl
      | ok chunk => exact absurd ho (hshown _ _)
    · cases hr
      rfl
    · cases hr
  by_cases hreturned : ∃ r, call = .returned r
  · obtain ⟨r, rfl⟩ := hreturned
    rw [advance_returned hadmits]
  · have hnone : ∀ c : ProgramFrame, (∀ r, c ≠ .returned r) → c.held = [] := by
      intro c hc
      cases c with
      | returned r => exact absurd rfl (hc r)
      | _ => rfl
    rw [hnone call fun r hr => hreturned ⟨r, hr⟩]
    have hbegun : ∀ r, begun call e ≠ .returned r := by
      intro r hr
      cases e with
      | callStartLoops | send | receive | close => cases hr
      | _ => exact hreturned ⟨r, hr⟩
    unfold advance
    split
    · split
      · rfl
      · unfold unstarted
        split
        · rfl
        · rfl
      · rfl
    · split
      · rename_i response hfind
        exact hresponse _ response hfind
      · exact hnone _ hbegun

/-- A step that leaves what is ready alone. -/
theorem Gets.of_same (h : Gets call pushed got s) (hadmits : admits call request e = true)
    (hreceive : ∀ i, e ≠ .receive i) (hshown : ∀ i result, .received i result ∉ shown)
    (hready : s'.readyChunks = s.readyChunks) (hchunks : ProtoStream.chunks shown = [])
    (herror : s'.streamError = s.streamError)
    (hstart : s'.startLoops = .idle → s.startLoops = .idle) :
    Gets (advance call request e start shown) (pushed ++ ProtoStream.chunks shown)
      (got ++ received shown) s' := by
  have hnone : received shown = [] := by
    refine List.filterMap_eq_nil_iff.mpr fun o ho => ?_
    cases o with
    | received j result => exact absurd ho (hshown j result)
    | _ => rfl
  rw [hchunks, hnone, List.append_nil, List.append_nil]
  refine ⟨hready ▸ h.orderly, ?_, ?_, h.first, fun hidle => ?_⟩
  · rw [hready, receiver_advance hadmits hreceive hshown]
    exact h.pending
  · rw [hready, herror]
    exact h.ready
  · rw [herror]
    exact h.unstarted (hstart hidle)

/-- Packets have been put in order. -/
theorem Gets.pushes (h : Gets call pushed got s) (hadmits : admits call request e = true)
    (hreceive : ∀ i, e ≠ .receive i) {packets : List ReceivedPacket}
    (hready : s'.readyChunks = packets.foldl pushChunk s.readyChunks)
    (herror : s'.streamError = s.streamError) (hstart : s'.startLoops = s.startLoops) :
    Gets (advance call request e start (packets.map .chunk))
      (pushed ++ ProtoStream.chunks (packets.map .chunk))
      (got ++ received (packets.map .chunk)) s' := by
  obtain ⟨horderly, hpending, hcontents⟩ := orderly_pushes packets h.orderly
  rw [received_chunks, List.append_nil]
  refine ⟨hready ▸ horderly, ?_, fun hnone => ?_, prefix_pushed h.first _, fun hidle => ?_⟩
  · rw [hready, hpending, receiver_advance hadmits hreceive (by simp [ProtoStream.Observation.chunk])]
    exact h.pending
  · rw [herror] at hnone
    rw [hready, hcontents, ← List.append_assoc, ← h.ready hnone]
  · rw [herror]
    rw [hstart] at hidle
    exact h.unstarted hidle

/-- Only the call of the program takes a chunk. -/
theorem Gets.receiving (h : Gets call pushed got s) {i : Nat} {chunk : Chunk}
    {queue : AsyncQueue Nat Chunk} (htake : s.readyChunks.resume i = some (chunk, queue)) :
    call = .receiving i := by
  obtain ⟨-, hpending, -⟩ := h.orderly.resume htake
  rw [h.pending] at hpending
  cases call with
  | receiving j => rw [(List.cons.inj hpending).1]
  | _ => cases hpending

/-- **The step lemma of what a program receives.** -/
theorem Gets.stream (h : Gets call pushed got s) (hsingle : Single s)
    (hclean : s.streamError = none → ∀ c ∈ pushed, c.empty = false)
    (hs : s.step e = some (s', shown)) (hadmits : admits call request e = true) :
    Gets (advance call request e s'.startLoops shown) (pushed ++ ProtoStream.chunks shown)
      (got ++ received shown) s' := by
  cases ProtoStream.step_cases hs with
  | receive i herror =>
      -- the program was in no call
      obtain ⟨hidle, -⟩ := of_decide_eq_true hadmits
      have hnone : s.readyChunks.pending = [] := by rw [h.pending, hidle]; rfl
      obtain ⟨horderly, hpending⟩ := AsyncQueue.orderly_pop hnone i
      refine ⟨horderly, hpending, fun hok => ?_, ?_, h.unstarted⟩
      · rw [AsyncQueue.contents_pop, received_nil, List.append_nil]
        exact (List.append_nil _).trans (h.ready hok)
      · exact (List.append_nil got).symm ▸ prefix_pushed h.first _
  | refused i ec herror =>
      obtain ⟨hidle, -⟩ := of_decide_eq_true hadmits
      refine ⟨h.orderly, ?_, fun hok => ?_, ?_, h.unstarted⟩
      · rw [h.pending, hidle]
        simp [advance, begun, responseIn, ProgramFrame.receiver]
      · rw [herror] at hok
        cases hok
      · exact (List.append_nil got).symm ▸ prefix_pushed h.first _
  | received i chunk queue htake herror =>
      obtain ⟨horderly, hpending, hnone, hcontents⟩ := h.orderly.resume htake
      have hready := h.ready herror
      rw [hcontents] at hready
      have hcall := h.receiving htake
      have hgot : pushed = (got ++ [chunk]) ++ queue.contents := by
        rw [hready, List.append_assoc]
        rfl
      refine ⟨horderly, ?_, fun _ => (List.append_nil _).trans hgot, ?_, h.unstarted⟩
      · rw [hnone, hcall]
        simp [advance, begun, responseIn, ProgramFrame.receiver]
      · -- no error has been recorded, so there is no empty chunk
        have hall : pushed.filter (fun c => !c.empty) = pushed :=
          List.filter_eq_self.mpr fun c hc => by rw [hclean herror c hc, Bool.not_false]
        refine prefix_pushed ?_ []
        rw [hall, hgot]
        exact List.prefix_append _ _
  | failed i chunk queue ec htake herror =>
      obtain ⟨horderly, hpending, hnone, -⟩ := h.orderly.resume htake
      have hcall := h.receiving htake
      refine ⟨horderly, ?_, fun hok => ?_, ?_, h.unstarted⟩
      · rw [hnone, hcall]
        simp [advance, begun, responseIn, ProgramFrame.receiver]
      · rw [herror] at hok
        cases hok
      · exact (List.append_nil got).symm ▸ prefix_pushed h.first _
  | chunk r => exact h.pushes hadmits (by simp) rfl rfl rfl
  | lastChunk r => exact h.pushes hadmits (by simp) rfl rfl rfl
  | stored ec hfinished herror =>
      obtain ⟨horderly, hpending, -⟩ := h.orderly.push (Chunk.null)
      refine ⟨horderly, ?_, fun hok => ?_, ?_, fun hidle => ?_⟩
      swap
      · cases hok
      · rw [receiver_advance hadmits (by simp) (by simp)]
        exact hpending.trans h.pending
      · exact (List.append_nil got).symm ▸ prefix_pushed h.first _
      · have hspawned := (hsingle.spawned (by simp [hfinished])).2
        rw [show s.startLoops = _ from hidle] at hspawned
        cases hspawned
  | callStartLoops now fault generated i hidle =>
      refine h.of_same hadmits (by simp) (by simp) rfl (by simp [ProtoStream.chunks]) ?_ ?_
      · exact (h.unstarted hidle).symm
      · exact fun hstart => by cases hstart
  | transport => exact h.of_same hadmits (by simp) (by simp) rfl (by simp [ProtoStream.chunks]) rfl id
  | unstarted | started =>
      exact h.of_same hadmits (by simp) (by simp) rfl rfl rfl fun hidle => by cases hidle
  | _ => exact h.of_same hadmits (by simp) (by simp) rfl rfl rfl id

/-- What a call of `receive` returns, its program has. -/
theorem Gets.held (h : Gets call pushed got s) (hs : s.step e = some (s', shown))
    (hadmits : admits call request e = true) :
    (advance call request e start shown).held = call.held ++ received shown := by
  by_cases hreceived : ∃ i chunk, .received i (.ok chunk) ∈ shown
  · obtain ⟨i, chunk, hmem⟩ := hreceived
    cases ProtoStream.step_cases hs with
    | received j chunk' queue htake herror =>
        obtain rfl := h.receiving htake
        simp [advance, begun, responseIn, ProgramFrame.held, received]
    | refused | failed =>
        cases (ProtoStream.Observation.received.inj (List.mem_singleton.mp hmem)).2
    | chunk | lastChunk => simp [ProtoStream.Observation.chunk] at hmem
    | transport | callStartLoops => simp at hmem
    | _ => simp at hmem
  · rw [held_advance hadmits fun i chunk hmem => hreceived ⟨i, chunk, hmem⟩]
    have hnone : received shown = [] := by
      refine List.filterMap_eq_nil_iff.mpr fun o ho => ?_
      cases o with
      | received i result =>
          cases result with
          | error ec => rfl
          | ok chunk => exact absurd ⟨i, chunk, ho⟩ hreceived
      | _ => rfl
    rw [hnone, List.append_nil]

end Step

end Dialogue
end FileHopZ
