import FileHopZ.Protohopz.CongestionWindow

/-! # Wake-ups of suspended senders

A call of `send_packet` that finds the window closed sleeps in `cwnd_.wait`.  It
is released one waiter at a time: `ack_handler` and the error path of
`send_packet` call `notify_one` once for every slot they free, and
`store_loop_error` calls it once.  `stop_loops` empties `in_flight_` without
calling it, and a woken call that fails before it registers its packet does not
pass its wake-up on.

So a sleeping call can be left behind, with nothing in flight that could release
it or after a recorded loop error (`stuck_sender`).  `KeepsAwake` names the three
situations in which that happens; in a run that avoids them, whenever no wake-up
is under way every sleeping call has something in flight to be released by
(`no_stuck_sender`).
-/
namespace FileHopZ
namespace ProtoHopZ
variable {P : Primitives}
open Transition

/-- No call sleeps in `cwnd_.wait` with an empty window or after a loop error,
once the wake-ups under way have been delivered. -/
def NoStuckSender (t : ProtoHopZ P) : Prop :=
  t.cwnd.completions = [] → ∀ i source, t.sends i = .waiting source →
    t.inFlight.keys ≠ ∅ ∧ t.loopError = none

/-- `send_packet` gives up `source` before it registers it: the plaintext is too
large, the keys are not there, or encryption fails. -/
def Refuses (t : ProtoHopZ P) (source : Packet) (fault : Option ErrorCode) : Prop :=
  t.connectionEncrypted = true ∧ (packetPayloadSize < source.header.size.toNat ∨
    t.cryptoContext.isReady = false ∨ fault ≠ none)

/-- The completion handler of a loop records the loop's error. -/
def Records (t : ProtoHopZ P) (ec : Option Error) : Prop :=
  ec ≠ none ∧ t.loopError = none ∧ ¬ (t.stoppingLoops = true ∧ ec = some .operationAborted)

/-- The event leaves no sleeping call behind: a woken call that gives up was not
the last hope of another, a loop error finds at most one sleeper, and `stop_loops`
finds none that has no wake-up under way. -/
def KeepsAwake (t : ProtoHopZ P) : Event P → Prop
  | .resumeSend i fault _ _ => ∀ source, t.sends i = .waiting source → t.Refuses source fault →
      t.inFlight.keys ≠ ∅ ∨ t.cwnd.waiters = [] ∨ t.cwnd.completions.erase i ≠ []
  | .receiveLoopResult => ∀ ec, t.receiveLoop = .finished ec → t.Records ec →
      t.cwnd.waiters.length ≤ 1
  | .timeoutLoopResult => ∀ ec, t.timeoutLoop = .finished ec → t.Records ec →
      t.cwnd.waiters.length ≤ 1
  | .resumeStop => t.cwnd.waiters = [] ∨ t.cwnd.completions ≠ []
  | _ => True

/-- The invariant behind `no_stuck_sender`. -/
structure Awake (t : ProtoHopZ P) : Prop where
  cwnd_pos : 1 ≤ t.cwnd.value
  listed : ∀ i source, t.sends i = .waiting source →
    i ∈ t.cwnd.waiters ∨ i ∈ t.cwnd.completions
  asleep : t.cwnd.waiters ≠ [] → t.cwnd.completions = [] → t.inFlight.keys ≠ ∅
  calm : t.loopError ≠ none → t.cwnd.waiters = []

theorem Awake.noStuckSender {t : ProtoHopZ P} (h : t.Awake) : t.NoStuckSender := by
  intro hquiet i source hi
  have hmem : i ∈ t.cwnd.waiters := by
    rcases h.listed i source hi with hw | hc
    · exact hw
    · rw [hquiet] at hc
      cases hc
  have hne : t.cwnd.waiters ≠ [] := List.ne_nil_of_mem hmem
  refine ⟨h.asleep hne hquiet, ?_⟩
  by_contra hle
  exact hne (h.calm hle)

theorem awake_construct (peer : Endpoint) : (construct P peer).Awake where
  cwnd_pos := by simp [construct, initialCwnd]
  listed := by simp [construct]
  asleep := by simp [construct]
  calm := by simp [construct]

/-- The invariant looks at the window, the keys in flight, the loop error and the
sleeping calls only. -/
theorem Awake.congr {t t' : ProtoHopZ P} (h : t.Awake) (hc : t'.cwnd = t.cwnd)
    (hf : t'.inFlight.keys = t.inFlight.keys) (hl : t'.loopError = none ∨ t'.loopError = t.loopError)
    (hs : ∀ i source, t'.sends i = .waiting source → t.sends i = .waiting source) : t'.Awake where
  cwnd_pos := hc ▸ h.cwnd_pos
  listed i source hi := hc ▸ h.listed i source (hs i source hi)
  asleep := by rw [hc, hf]; exact h.asleep
  calm hle := by
    rw [hc]
    rcases hl with hl | hl
    · exact absurd hl hle
    · exact h.calm (hl ▸ hle)

/-! ## The functions that sleep or wake -/

theorem refuses_of_encryptPacket {t : ProtoHopZ P} {fault : Option ErrorCode} {nonce : Nonce}
    {packet : Packet} {ec : Error} (h : t.encryptPacket fault nonce packet = .error ec) :
    t.Refuses packet fault := by
  unfold encryptPacket at h
  split_ifs at h with henc hsize
  · exact ⟨by simpa using henc, Or.inl hsize⟩
  refine ⟨by simpa using henc, Or.inr ?_⟩
  cases hr : t.cryptoContext.isReady with
  | false => exact Or.inl rfl
  | true =>
      refine Or.inr fun hfault => ?_
      subst hfault
      have hlen : packet.data.length ≤ packetPayloadSize := by
        rw [Packet.data, List.length_take]
        exact (Nat.min_le_left _ _).trans (not_lt.mp hsize)
      rw [CryptoContext.encryptData, if_neg (by simp [hr])] at h
      dsimp only at h
      rw [if_neg (by rw [CryptoContext.length_frame, packetSize, cryptOverhead]; omega)] at h
      cases h

theorem keys_insert_ne_empty (m : InFlight) (sequence : UInt32) (l : PacketLocal) :
    (m.insert sequence l).keys ≠ ∅ :=
  Finset.ne_empty_of_mem (Finmap.mem_keys.mpr (Finmap.mem_insert.mpr (Or.inl rfl)))

theorem Resumes.waiters_eq {t : ProtoHopZ P} {i : Nat} {source : Packet}
    {cwnd : AsyncValue Nat ℚ} (h : t.Resumes i source cwnd) : cwnd.waiters = t.cwnd.waiters := by
  rcases h with ⟨-, rfl⟩ | ⟨-, -, rfl⟩
  · rfl
  · rfl

/-- The other sleepers are still listed when a call goes on. -/
theorem Awake.listed_of_resumes {t : ProtoHopZ P} {i : Nat} {source : Packet}
    {cwnd : AsyncValue Nat ℚ} (h : t.Awake) (hcall : t.Resumes i source cwnd) {j : Nat}
    {src : Packet} (hji : j ≠ i) (hj : t.sends j = .waiting src) :
    j ∈ cwnd.waiters ∨ j ∈ cwnd.completions := by
  rcases hcall with ⟨-, rfl⟩ | ⟨-, -, rfl⟩
  · exact h.listed j src hj
  · refine (h.listed j src hj).imp id fun hjc => ?_
    exact (List.mem_erase_of_ne hji).mpr hjc

/-- A call that goes on, and neither sleeps again nor leaves a sleeper with nothing in flight. -/
theorem awake_resumed {t t' : ProtoHopZ P} {i : Nat} {source : Packet} {cwnd : AsyncValue Nat ℚ}
    {f : SendFrame} (h : t.Awake) (hcall : t.Resumes i source cwnd) (hcwnd : t'.cwnd = cwnd)
    (hsends : t'.sends = Function.update t.sends i f) (hf : ∀ src, f ≠ .waiting src)
    (hloop : t'.loopError = t.loopError)
    (hasleep : cwnd.waiters ≠ [] → cwnd.completions = [] → t'.inFlight.keys ≠ ∅) : t'.Awake := by
  subst hcwnd
  refine ⟨hcall.value_eq ▸ h.cwnd_pos, fun j src hj => ?_, hasleep, fun hne => ?_⟩
  · rw [hsends] at hj
    by_cases hji : j = i
    · subst hji
      rw [Function.update_self] at hj
      exact absurd hj (hf src)
    · rw [Function.update_of_ne hji] at hj
      exact h.listed_of_resumes hcall hji hj
  · rw [hcall.waiters_eq]
    exact h.calm (hloop ▸ hne)

/-- A woken call that gives up was not the last hope of another. -/
theorem Awake.asleep_of_gives_up {t : ProtoHopZ P} {i : Nat} {source : Packet}
    {fault : Option ErrorCode} {nonce : Nonce} {now : Nat} {cwnd : AsyncValue Nat ℚ} (h : t.Awake)
    (hok : t.KeepsAwake (.resumeSend i fault nonce now)) (hcall : t.Resumes i source cwnd)
    (hgive : t.Refuses source fault ∨ t.loopError ≠ none) (hw : cwnd.waiters ≠ [])
    (hc : cwnd.completions = []) : t.inFlight.keys ≠ ∅ := by
  rcases hcall with ⟨-, rfl⟩ | ⟨hi, -, rfl⟩
  · exact h.asleep hw hc
  rcases hgive with hgive | hgive
  · rcases hok source hi hgive with hne | he | he
    · exact hne
    · exact absurd he hw
    · exact absurd hc he
  · exact absurd (h.calm hgive) hw

/-- The window is closed: the call goes to sleep, with something in flight. -/
theorem awake_delayed {t : ProtoHopZ P} {i : Nat} {source : Packet} {cwnd : AsyncValue Nat ℚ}
    (h : t.Awake) (hcall : t.Resumes i source cwnd) (herror : t.loopError = none)
    (hblocked : t.blocked = true) :
    { t with cwnd := cwnd.wait i, sends := Function.update t.sends i (.waiting source) }.Awake := by
  have hne : t.inFlight.keys ≠ ∅ := keys_ne_empty_of_blocked h.cwnd_pos hblocked
  refine ⟨?_, fun j src hj => ?_, fun _ _ => hne, fun hfailed => absurd herror hfailed⟩
  · show 1 ≤ cwnd.value
    rw [hcall.value_eq]
    exact h.cwnd_pos
  · by_cases hji : j = i
    · exact Or.inl (by simp [hji])
    · dsimp only at hj
      rw [Function.update_of_ne hji] at hj
      refine (h.listed_of_resumes hcall hji hj).imp (fun hw => ?_) id
      exact List.mem_append_left _ hw

/-- Freeing a slot wakes a sleeper, if there is one. -/
theorem awake_notifyOne {t t' : ProtoHopZ P} (h : t.Awake) {v : ℚ} (hv : 1 ≤ v)
    (hc : t'.cwnd = (t.cwnd.update v).notifyOne) (hl : t'.loopError = t.loopError)
    (hs : ∀ i source, t'.sends i = .waiting source → t.sends i = .waiting source) :
    t'.Awake := by
  refine ⟨by rw [hc]; simpa using hv, ?_, ?_, ?_⟩
  · intro i source hi
    rw [hc]
    simp only [AsyncValue.waiters_notifyOne, AsyncValue.completions_notifyOne,
      AsyncValue.waiters_update, AsyncValue.completions_update, List.mem_append]
    rcases h.listed i source (hs i source hi) with hw | hw
    · cases hws : t.cwnd.waiters with
      | nil => rw [hws] at hw; cases hw
      | cons w ws =>
          rw [hws] at hw
          rcases List.mem_cons.mp hw with rfl | hw
          · exact Or.inr (Or.inr (by simp))
          · exact Or.inl hw
    · exact Or.inr (Or.inl hw)
  · intro hw hcomp
    rw [hc] at hw hcomp
    cases hws : t.cwnd.waiters <;> simp [hws] at hw hcomp
  · intro hle
    rw [hc, AsyncValue.waiters_notifyOne, AsyncValue.waiters_update, h.calm (hl ▸ hle)]
    rfl

theorem awake_signalIfDrained {t : ProtoHopZ P} (h : t.Awake) : t.signalIfDrained.Awake := by
  unfold signalIfDrained
  split_ifs
  · exact h.congr rfl rfl (Or.inr rfl) fun _ _ hj => hj
  · exact h

/-- The window never falls below one packet. -/
theorem one_le_nextCwnd {t : ProtoHopZ P} (h : 1 ≤ t.cwnd.value) : 1 ≤ t.nextCwnd := by
  have hmax : (1 : ℚ) ≤ maxCwnd := by norm_num [maxCwnd]
  have hgrow : (0 : ℚ) ≤ 1 / t.cwnd.value := div_nonneg zero_le_one (by linarith)
  unfold nextCwnd
  split_ifs
  · exact le_min (by linarith) hmax
  · exact le_min (by linarith) hmax

/-- `store_loop_error` wakes the only sleeper there may be. -/
theorem awake_handleLoopResult {t : ProtoHopZ P} (h : t.Awake) {ec : Option Error}
    (hok : t.Records ec → t.cwnd.waiters.length ≤ 1) : (t.handleLoopResult ec).Awake := by
  unfold handleLoopResult
  split_ifs with hstop
  · exact h
  unfold storeLoopError
  split
  · rename_i ec hle
    have hone : t.cwnd.waiters.tail = [] := by
      have hlen := hok ⟨by simp, hle, hstop⟩
      exact List.length_eq_zero_iff.mp (by rw [List.length_tail]; omega)
    have hwake : ({ t with cwnd := t.cwnd.notifyOne } : ProtoHopZ P).Awake :=
      awake_notifyOne h h.cwnd_pos rfl rfl fun _ _ hj => hj
    exact ⟨hwake.cwnd_pos, hwake.listed, hwake.asleep,
      fun _ => (AsyncValue.waiters_notifyOne _).trans hone⟩
  · exact h

/-! ## Every step -/

/-- A call that has posted, or has got to the socket, is not asleep. -/
theorem awake_update {t t' : ProtoHopZ P} (h : t.Awake) {i : Nat} {f : SendFrame}
    (hf : ∀ src, f ≠ .waiting src) (hc : t'.cwnd = t.cwnd) (hflight : t'.inFlight = t.inFlight)
    (hl : t'.loopError = t.loopError) (hs : t'.sends = Function.update t.sends i f) :
    t'.Awake := by
  refine h.congr hc (by rw [hflight]) (Or.inr hl) fun j src hj => ?_
  rw [hs] at hj
  by_cases hji : j = i
  · subst hji
    rw [Function.update_self] at hj
    exact absurd hj (hf src)
  · rwa [Function.update_of_ne hji] at hj

theorem awake_shakes {t t' : ProtoHopZ P} {out : List Observation} (h : t.Awake)
    (hshakes : Shakes t t' out) : t'.Awake := by
  cases hshakes with
  | begunInitiator | installedResponder => exact awake_update h (by simp) rfl rfl rfl rfl
  | failed | begunResponder | sentInitiator | sentResponder | interrupted | rejected
  | installedInitiator =>
      exact h.congr rfl rfl (Or.inr rfl) fun _ _ hj => hj

/-- **The step lemma.** -/
theorem awake_step {t t' : ProtoHopZ P} {e : Event P} {out : List Observation} (h : t.Awake)
    (hok : t.KeepsAwake e) (hs : t.step e = some (t', out)) : t'.Awake := by
  have hcongr : ∀ t' : ProtoHopZ P, t'.cwnd = t.cwnd → t'.inFlight.keys = t.inFlight.keys →
      t'.loopError = t.loopError → t'.sends = t.sends → t'.Awake :=
    fun t' hc hf hl hs => h.congr hc hf (Or.inr hl) fun _ _ hj => hs ▸ hj
  cases step_cases hs with
  | startLoops => exact h.congr rfl rfl (Or.inl rfl) fun _ _ hj => hj
  | refused _ _ _ _ _ _ _ hcall herror =>
      exact awake_resumed h hcall rfl rfl (by simp) rfl
        (h.asleep_of_gives_up hok hcall (Or.inr (by simp [herror])))
  | delayed _ _ _ _ _ _ hcall herror hblocked => exact awake_delayed h hcall herror hblocked
  | unencrypted _ _ _ _ _ _ _ hcall _ _ hencrypt =>
      have hrefuses := refuses_of_encryptPacket hencrypt
      exact awake_resumed h hcall rfl rfl (by simp) rfl
        (h.asleep_of_gives_up hok hcall (Or.inl hrefuses))
  | registered _ _ _ _ _ _ _ hcall =>
      exact awake_resumed h hcall rfl rfl (by simp) rfl fun _ _ => keys_insert_ne_empty _ _ _
  | sendPacket | transmitSend | sent => exact awake_update h (by simp) rfl rfl rfl rfl
  | unsent i packet ec =>
      refine awake_signalIfDrained (awake_notifyOne h h.cwnd_pos rfl rfl fun j src hj => ?_)
      dsimp only at hj
      by_cases hji : j = i
      · subst hji
        simp at hj
      · rwa [Function.update_of_ne hji] at hj
  | acked =>
      exact awake_signalIfDrained
        (awake_notifyOne h (one_le_nextCwnd h.cwnd_pos) rfl rfl fun _ _ hj => hj)
  | receiveLoopResult ec hec | timeoutLoopResult ec hec =>
      refine awake_handleLoopResult ?_ fun hr => hok ec hec hr
      exact hcongr _ rfl rfl rfl rfl
  | timedOut => exact ⟨le_refl (1 : ℚ), h.listed, h.asleep, h.calm⟩
  | resent => exact hcongr _ rfl (keys_touch _ _ _) rfl rfl
  | shakes _ _ _ _ hshakes => exact awake_shakes h hshakes
  | resumeStop =>
      refine ⟨h.cwnd_pos, h.listed, fun hw hc => ?_, h.calm⟩
      rcases hok with hok | hok
      · exact absurd hok hw
      · exact absurd hc hok
  | ignored | unread | tooLarge | repeated | undecrypted | accepted | receiveError | idled
  | checked | transmitResend | unresent | timer | awaitPacket | takePacket | cancelPacket | drain
  | resumeDrain | stop =>
      exact hcongr _ rfl rfl rfl rfl

/-- **No stuck sender.**  In every run whose steps leave no sleeping call behind,
at every moment at which no wake-up is under way, a call that sleeps in
`cwnd_.wait` has a packet in flight to be released by, and no loop error is
recorded. -/
theorem no_stuck_sender {peer : Endpoint} {tr : List Observation} {t : ProtoHopZ P}
    (h : Run step KeepsAwake (construct P peer) tr t) : t.NoStuckSender :=
  (h.invariant (I := fun _ (t : ProtoHopZ P) => t.Awake) (awake_construct peer)
    fun _ _ _ _ _ ih hok hs => awake_step ih hok hs).noStuckSender

/-- Call `i` of `send_packet` is asleep. -/
def sleeps (t : ProtoHopZ P) (i : Nat) : Bool :=
  match t.sends i with
  | .waiting _ => true
  | _ => false

/-- Packet 0 is sent and times out, which closes the window; calls 1 and 2 go to
sleep. -/
def sleepers : List (Event .additive) :=
  [.startLoops 0, .sendPacket 0 samplePacket, .resumeSend 0 none sampleNonce 0,
    .transmitSend 0, .finishSend 0 none, .timeoutIteration 200 [0],
    .sendPacket 1 samplePacket, .resumeSend 1 none sampleNonce 0,
    .sendPacket 2 samplePacket, .resumeSend 2 none sampleNonce 0]

/-- The run of `sleepers` meets the condition of `no_stuck_sender`. -/
theorem no_stuck_sender_sleepers : ∃ tr t,
    Run step KeepsAwake (construct .additive samplePeer) tr t ∧ t.NoStuckSender ∧
      (t.sleeps 1 && t.sleeps 2) = true := by
  obtain ⟨tr, t, hrun, hp⟩ := exists_run step KeepsAwake (construct .additive samplePeer)
    sleepers (fun _ t => t.sleeps 1 && t.sleeps 2)
    (fun t e => match e with
      | .receiveLoopResult | .timeoutLoopResult | .resumeStop => false
      | .resumeSend i _ _ _ => !t.sleeps i
      | _ => true)
    (fun t e h => by
      cases e with
      | resumeSend i fault nonce now =>
          intro source hi
          simp [sleeps, hi] at h
      | receiveLoopResult | timeoutLoopResult | resumeStop => cases h
      | _ => trivial)
    (by decide +kernel)
  exact ⟨tr, t, hrun, no_stuck_sender hrun, hp⟩

/-- **A sender that stays asleep.**  With calls 1 and 2 asleep, a `DATA` packet
that announces more bytes than fit ends `receive_loop`; `store_loop_error` wakes
call 1 only, which returns the error.  Call 2 sleeps on. -/
theorem stuck_sender : ¬ ∀ tr t,
    Run step Always (construct .additive samplePeer) tr t → t.NoStuckSender := by
  intro hall
  obtain ⟨tr, t, hrun, hp⟩ := exists_run step Always (construct .additive samplePeer)
    (sleepers ++ [.datagram samplePeer samplePacket
        ({ type := .data, size := 2000, sequence := 0 } : PacketHeader).toBytes 0 none,
      .receiveLoopResult, .resumeSend 1 none sampleNonce 0])
    (fun _ t => t.cwnd.completions.isEmpty && t.loopError.isSome && t.sleeps 2)
    (fun _ _ => true) (fun _ _ _ => trivial) (by decide +kernel)
  simp only [Bool.and_eq_true, List.isEmpty_iff, Option.isSome_iff_ne_none] at hp
  obtain ⟨⟨hquiet, herr⟩, hsleep⟩ := hp
  unfold sleeps at hsleep
  split at hsleep
  · rename_i source hi
    exact herr (hall tr t hrun hquiet 2 source hi).2
  · cases hsleep

end ProtoHopZ
end FileHopZ
