import FileHopZ.Protohopz.Ordering
import Mathlib.Data.Fintype.Basic

/-! # Two sides and the network

A `Session` is the streams of the two sides with every datagram either has put on
the network.  The machine lets any datagram arrive anywhere; what a network may
do is a guard on its runs.  An honest network (`Honest`) delivers what one side
sent to the other -- late, repeatedly, in any order or never.
-/
namespace FileHopZ

/-- The other side. -/
def Role.peer : Role → Role
  | .initiator => .responder
  | .responder => .initiator

@[simp] theorem Role.peer_peer (side : Role) : side.peer.peer = side := by cases side <;> rfl
@[simp] theorem Role.peer_ne (side : Role) : side.peer ≠ side := by cases side <;> simp [Role.peer]

theorem Role.eq_or_eq_peer (side mover : Role) : side = mover ∨ side = mover.peer := by
  cases side <;> cases mover <;> simp [Role.peer]

instance : Fintype Role where
  elems := {.initiator, .responder}
  complete side := by cases side <;> simp

/-- No loop has failed, and `stop_loops` has not been called. -/
def ProtoHopZ.Healthy {P : Primitives} (t : ProtoHopZ P) : Prop :=
  t.receiveLoop = .running ∧ t.loopError = none ∧ t.stop = .idle

instance {P : Primitives} (t : ProtoHopZ P) : Decidable t.Healthy :=
  inferInstanceAs (Decidable (_ ∧ _ ∧ _))

/-- The streams of the two sides and the datagrams each has sent. -/
structure Session (P : Primitives) where
  stream : Role → ProtoStream P
  air : Role → List (Endpoint × Bytes) := fun _ => []

namespace Session
variable {P : Primitives}

/-- The two sides at their addresses; the responder does not know the other's. -/
def construct (P : Primitives) (address : Role → Endpoint) : Session P where
  stream
    | .initiator => .construct P (address .responder) .initiator
    | .responder => .construct P ⟨0, 0⟩ .responder

/-- The step function: one side moves. -/
def step (s : Session P) (e : Role × ProtoStream.Event P) :
    Option (Session P × List (Role × ProtoStream.Observation)) :=
  ((s.stream e.1).step e.2).map fun r =>
    ({ stream := Function.update s.stream e.1 r.1
       air := Function.update s.air e.1 (s.air e.1 ++ ProtoStream.emitted r.2) },
      r.2.map (e.1, ·))

/-- What one side showed. -/
def shown (side : Role) (tr : List (Role × ProtoStream.Observation)) :
    List ProtoStream.Observation :=
  tr.filterMap fun o => if o.1 = side then some o.2 else none

@[simp] theorem shown_nil (side : Role) : shown side [] = [] := rfl

theorem shown_append (side : Role) (tr more : List (Role × ProtoStream.Observation)) :
    shown side (tr ++ more) = shown side tr ++ shown side more := List.filterMap_append

theorem shown_append_self (side : Role) (tr : List (Role × ProtoStream.Observation))
    (out : List ProtoStream.Observation) :
    shown side (tr ++ out.map (side, ·)) = shown side tr ++ out := by
  simp [shown, List.filterMap_append, List.filterMap_map]

theorem shown_append_of_ne {side mover : Role} (h : mover ≠ side)
    (tr : List (Role × ProtoStream.Observation)) (out : List ProtoStream.Observation) :
    shown side (tr ++ out.map (mover, ·)) = shown side tr := by
  simp [shown, List.filterMap_append, List.filterMap_map, h]

/-- The datagram that an event lets arrive, with where it comes from. -/
def arrival : ProtoStream.Event P → Option (Endpoint × Bytes)
  | .transport (.datagram remote _ bytes _ _) => some (remote, bytes)
  | _ => none

/-- The datagram that arrives was sent by the other side to this one, and comes
from the other's address. -/
def Honest (address : Role → Endpoint) (s : Session P) (e : Role × ProtoStream.Event P) : Prop :=
  ∀ a ∈ arrival e.2, a.1 = address e.1.peer ∧ (address e.1, a.2) ∈ s.air e.1.peer

/-- The side that moves does not use up its sequence numbers: `sequence_counter_`
does not wrap around. -/
def NoWrap (s : Session P) (e : Role × ProtoStream.Event P) : Prop :=
  ∀ r ∈ s.step e,
    (s.stream e.1).transport.sequenceCounter ≤ (r.1.stream e.1).transport.sequenceCounter

instance (address : Role → Endpoint) (s : Session P) (e : Role × ProtoStream.Event P) :
    Decidable (Honest address s e) :=
  inferInstanceAs (Decidable (∀ a ∈ arrival e.2, _))

instance (s : Session P) (e : Role × ProtoStream.Event P) : Decidable (NoWrap s e) :=
  inferInstanceAs (Decidable (∀ r ∈ s.step e, _))

/-- No loop of a transport has failed, and `stop_loops` has not been called. -/
def Healthy (s : Session P) : Prop := ∀ side, (s.stream side).transport.Healthy

/-- The step starts and ends in a healthy session. -/
def StaysHealthy (s : Session P) (e : Role × ProtoStream.Event P) : Prop :=
  s.Healthy ∧ ∀ r ∈ s.step e, r.1.Healthy

/-- The runs of a working session: over an honest network, no number is used
twice, no loop fails and `stop_loops` is not called. -/
def Working (address : Role → Endpoint) (s : Session P) (e : Role × ProtoStream.Event P) : Prop :=
  Honest address s e ∧ NoWrap s e ∧ StaysHealthy s e

instance (s : Session P) : Decidable s.Healthy :=
  inferInstanceAs (Decidable (∀ side, (s.stream side).transport.Healthy))

instance (s : Session P) (e : Role × ProtoStream.Event P) : Decidable (StaysHealthy s e) :=
  inferInstanceAs (Decidable (_ ∧ ∀ r ∈ s.step e, _))

instance (address : Role → Endpoint) (s : Session P) (e : Role × ProtoStream.Event P) :
    Decidable (Working address s e) :=
  inferInstanceAs (Decidable (_ ∧ _ ∧ _))

/-- What a step of the session is: one side moves, the other stays as it is. -/
theorem step_eq {s s' : Session P} {mover : Role} {e : ProtoStream.Event P}
    {out : List (Role × ProtoStream.Observation)} (hs : s.step (mover, e) = some (s', out)) :
    ∃ shown, (s.stream mover).step e = some (s'.stream mover, shown) ∧
      out = shown.map (mover, ·) ∧ s'.stream mover.peer = s.stream mover.peer ∧
      s'.air mover = s.air mover ++ ProtoStream.emitted shown ∧
      s'.air mover.peer = s.air mover.peer := by
  simp only [step, Option.map_eq_some_iff] at hs
  obtain ⟨⟨stream', shown⟩, hs, heq⟩ := hs
  obtain ⟨rfl, rfl⟩ := Prod.mk.inj heq.symm
  refine ⟨shown, ?_, rfl, ?_, ?_, ?_⟩
  · dsimp only
    rw [Function.update_self]
    exact hs
  · exact Function.update_of_ne (Role.peer_ne mover) _ _
  · exact Function.update_self _ _ _
  · exact Function.update_of_ne (Role.peer_ne mover) _ _

end Session
end FileHopZ
