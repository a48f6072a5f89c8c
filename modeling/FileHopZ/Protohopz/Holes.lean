import FileHopZ.Protohopz.Retransmission

/-! # Numbers that no packet has

`send_packet` draws its number before it encrypts, and takes the packet out of `in_flight_`
when the socket refuses it.  A call that fails at one of these points leaves a number that the
peer will wait for.  `Keeps` says which steps do not.
-/
namespace FileHopZ
namespace ProtoHopZ
variable {P : Primitives}

/-- No background loop has failed, and none is stopped. -/
def Undisturbed (s : Numbered P) (ev : SendEvent P) : Prop :=
  s.transport.loopError = none ∧ ev ≠ .transport .resumeStop

/-- No call fails that has drawn a number, unless its packet is acknowledged: the packet of a
call that finds room in the window can be encrypted, and a packet that the socket refuses is
not in flight any more. -/
def Keeps (s : Numbered P) : SendEvent P → Prop
  | .transport (.resumeSend i fault nonce _) =>
      ∀ source, s.transport.Intends i source → s.transport.blocked = false →
        ∃ packet, s.transport.encryptPacket fault nonce
          (source.withSequence s.transport.sequenceCounter) = .ok packet
  | .transport (.finishSend i (some _)) =>
      ∀ packet, s.transport.sends i = .sending packet false →
        packet.header.sequence ∉ s.transport.inFlight
  | _ => True

/-- Every number below the counter belongs to a packet that has been acknowledged or is in
flight. -/
def NoHole (tr : List Observation) (s : Numbered P) : Prop :=
  ∀ n, n < s.transport.sequenceCounter →
    (∃ p, WasRegistered tr p ∧ p.header.sequence = n) ∧
      (.acked n ∈ tr ∨ n ∈ s.transport.inFlight)

/-- A packet leaves flight when it is acknowledged, when the socket refuses it, or when the
loops are stopped. -/
theorem leaves_of_flies {t t' : ProtoHopZ P} {e : Event P} {out : List Observation}
    (h : Flies t e t' out) {n : UInt32} (hn : n ∈ t.inFlight) :
    n ∈ t'.inFlight ∨ .acked n ∈ out ∨ e = .resumeStop ∨
      ∃ i packet ec, t.sends i = .sending packet false ∧ t'.sends i = .returned (some ec) ∧
        packet.header.sequence = n := by
  cases h with
  | same hkeys hpackets hsending hreturned hout =>
      rw [← Finmap.mem_keys] at hn ⊢
      exact Or.inl (hkeys ▸ hn)
  | registered i source packet l hsource he hpacket hl hflight hsends hout =>
      rw [hflight, Finmap.mem_insert]
      exact Or.inl (Or.inr hn)
  | acked sequence hmem hflight hsends hout =>
      by_cases hs : n = sequence
      · exact Or.inr (Or.inl (by simp [hout, hs]))
      · rw [hflight, Finmap.mem_erase]
        exact Or.inl ⟨hs, hn⟩
  | failed i packet ec hframe hflight hsends hout =>
      by_cases hs : n = packet.header.sequence
      · refine Or.inr (Or.inr (Or.inr ⟨i, packet, ec, hframe, ?_, hs.symm⟩))
        rw [hsends, Function.update_self]
      · rw [hflight, Finmap.mem_erase]
        exact Or.inl ⟨hs, hn⟩
  | stopped he hflight hsends hout => exact Or.inr (Or.inr (Or.inl he))

theorem lt_or_eq_of_lt_succ {n c : UInt32} (h : n < c + 1) : n < c ∨ n = c := by
  rw [UInt32.lt_iff_toNat_lt, UInt32.toNat_add] at h
  have hone : (1 : UInt32).toNat = 1 := rfl
  have hc := c.toNat_lt
  by_cases heq : n = c
  · exact Or.inr heq
  · refine Or.inl (UInt32.lt_iff_toNat_lt.mpr ?_)
    have hne : n.toNat ≠ c.toNat := fun hnc => heq (UInt32.toNat_inj.mp hnc)
    omega

/-- What has a packet keeps it when the step takes no packet out of flight. -/
theorem NoHole.keep {tr out : List Observation} {s s' : Numbered P} (h : NoHole tr s)
    (hstays : ∀ n, n ∈ s.transport.inFlight → n ∈ s'.transport.inFlight ∨ .acked n ∈ out)
    {n : UInt32} (hn : n < s.transport.sequenceCounter) :
    (∃ p, WasRegistered (tr ++ out) p ∧ p.header.sequence = n) ∧
      (.acked n ∈ tr ++ out ∨ n ∈ s'.transport.inFlight) := by
  obtain ⟨⟨p, hp, hnumber⟩, hplace⟩ := h n hn
  refine ⟨⟨p, registered_mono out hp, hnumber⟩, ?_⟩
  rcases hplace with hacked | hflying
  · exact Or.inl (List.mem_append_left _ hacked)
  · exact (hstays n hflying).symm.imp (List.mem_append_right _) id

/-- **The step lemma.** -/
theorem NoHole.step {tr out : List Observation} {s s' : Numbered P} {ev : SendEvent P}
    (h : NoHole tr s) (hs : s.step ev = some (s', out)) (hundisturbed : Undisturbed s ev)
    (hloop : s'.transport.loopError = none) (hkeeps : Keeps s ev) : NoHole (tr ++ out) s' := by
  obtain ⟨ht, -⟩ := Numbered.step_cases hs
  obtain ⟨e, -, hflies, hcounts, hev⟩ := sendStep_cases ht
  rcases hev with rfl | ⟨hcounter, hflight⟩
  swap
  · intro n hn
    exact h.keep (fun k hk => Or.inl (hflight ▸ hk)) (hcounter ▸ hn)
  have hstop : e ≠ .resumeStop := fun he => hundisturbed.2 (by rw [he])
  cases hcounts with
  | same hcounter _ hfailed =>
      have hstays : ∀ n, n ∈ s.transport.inFlight →
          n ∈ s'.transport.inFlight ∨ .acked n ∈ out := by
        intro n hn
        rcases leaves_of_flies hflies hn with hin | hacked | he | ⟨i, packet, ec, hi, hi', hseq⟩
        · exact Or.inl hin
        · exact Or.inr hacked
        · exact absurd he hstop
        · -- the socket has refused the packet, which the condition excludes
          obtain rfl := hfailed i packet ec hi hi'
          exact absurd (hseq ▸ hn) (hkeeps packet hi)
      intro n hn
      exact h.keep hstays (hcounter ▸ hn)
  | woke he _ _ =>
      rcases he with he | ⟨-, hloop'⟩
      · exact absurd he hstop
      · exact absurd hloop hloop'
  | drew i source fault nonce now he hsource hopen hcounter hout =>
      subst he
      obtain ⟨packet, hpacket⟩ := hkeeps source hsource hopen.2
      rcases hout with ⟨ec, hec, -⟩ | ⟨p, hp, hout⟩
      · rw [hpacket] at hec
        cases hec
      cases hflies with
      | registered j source' q l hsource' he' hnumber hl hflight hsends hout' =>
          obtain ⟨-, rfl, -⟩ : i = j ∧ p = q ∧ source.data = source'.data := by
            simpa [hout] using hout'
          intro n hn
          rw [hcounter] at hn
          rcases lt_or_eq_of_lt_succ hn with hn | rfl
          · refine h.keep (fun k hk => Or.inl ?_) hn
            rw [hflight, Finmap.mem_insert]
            exact Or.inr hk
          · refine ⟨⟨p, ⟨i, source.data, by simp [hout]⟩, hnumber⟩, Or.inr ?_⟩
            rw [hflight, Finmap.mem_insert]
            exact Or.inl rfl
      | same _ _ _ _ hshown =>
          obtain ⟨j, ec, heq, -⟩ := hshown (.registered i p source.data) (by simp [hout]) rfl
          cases heq
      | acked _ _ _ _ hout' | failed _ _ _ _ _ _ hout' | stopped _ _ _ hout' =>
          simp [hout] at hout'

theorem noHole_run {peer : Endpoint} {tr : List Observation} {s : Numbered P}
    (h : Transition.Run Numbered.step (fun s ev => Undisturbed s ev ∧ Keeps s ev)
      (numbered P peer) tr s) (hloop : s.transport.loopError = none) : NoHole tr s := by
  induction h with
  | start => exact fun n hn => absurd hn (by simp [numbered, construct])
  | next _ hok hs ih => exact (ih hok.1.1).step hs hok.1 hloop hok.2

/-! ## Holes stay -/

/-- What has been acknowledged was drawn, and is not in flight. -/
def AckedGone (tr : List Observation) (s : Numbered P) : Prop :=
  ∀ n, .acked n ∈ tr → n.toNat < s.drawn ∧ n ∉ s.transport.inFlight

/-- Only a packet in flight is acknowledged. -/
theorem flying_of_acked {t t' : ProtoHopZ P} {e : Event P} {out : List Observation}
    (h : Flies t e t' out) {n : UInt32} (hn : .acked n ∈ out) :
    n ∈ t.inFlight ∧ n ∉ t'.inFlight := by
  cases h with
  | acked sequence hmem hflight hsends hout =>
      rw [hout, List.mem_singleton] at hn
      obtain rfl := Observation.acked.inj hn
      rw [hflight]
      exact ⟨hmem, Finmap.notMem_erase_self⟩
  | same hkeys hpackets hsending hreturned hout =>
      obtain ⟨i, ec, heq, -⟩ := hout _ hn rfl
      cases heq
  | registered i source packet l _ _ _ _ _ _ hout => simp [hout] at hn
  | failed i packet ec _ _ _ hout => simp [hout] at hn
  | stopped _ _ _ hout => simp [hout] at hn

theorem AckedGone.step {tr out : List Observation} {s s' : Numbered P} {ev : SendEvent P}
    (h : AckedGone tr s) (hI : Identity tr s) (hs : s.step ev = some (s', out)) :
    AckedGone (tr ++ out) s' := by
  have hle := Numbered.drawn_le_step hs
  intro n hn
  rcases List.mem_append.mp hn with hn | hn
  · obtain ⟨hlt, hout⟩ := h n hn
    exact ⟨hlt.trans_le hle, notMem_step hI hs hlt hout⟩
  · obtain ⟨e, -, hflies, -, -⟩ := sendStep_cases (Numbered.step_cases hs).1
    obtain ⟨hin, hout⟩ := flying_of_acked hflies hn
    obtain ⟨l, hl⟩ := Finmap.mem_iff.mp hin
    exact ⟨(hI.flight n l hl).2.trans_le hle, hout⟩

theorem ackedGone_run {peer : Endpoint} {tr : List Observation} {s : Numbered P}
    (h : Transition.Run Numbered.step Transition.Always (numbered P peer) tr s)
    (hfew : s.drawn < 2 ^ 32) : AckedGone tr s := by
  induction h with
  | start => exact fun n hn => absurd hn List.not_mem_nil
  | next hrun _ hs ih =>
      have hbefore := Nat.lt_of_le_of_lt (Numbered.drawn_le_step hs) hfew
      exact (ih hbefore).step (identity_run hrun hbefore) hs

/-- A number that has been drawn, is not in flight and has not been acknowledged will not be. -/
theorem hole_run {peer : Endpoint} {tr tr' : List Observation} {s s' : Numbered P} {n : UInt32}
    (h : Transition.Run Numbered.step Transition.Always (numbered P peer) tr s)
    (h' : Transition.Run Numbered.step Transition.Always s tr' s') (hfew : s'.drawn < 2 ^ 32)
    (hn : n.toNat < s.drawn) (hacked : .acked n ∉ tr) (hflying : n ∉ s.transport.inFlight) :
    n < s'.transport.sequenceCounter ∧ .acked n ∉ tr ++ tr' ∧ n ∉ s'.transport.inFlight := by
  induction h' with
  | start =>
      rw [List.append_nil, UInt32.lt_iff_toNat_lt, ← (identity_run h hfew).drawn]
      exact ⟨hn, hacked, hflying⟩
  | @next tr' s₁ s₂ ev out hrun _ hs ih =>
      have hle := Numbered.drawn_le_step hs
      have hI := identity_run (h.append hrun) (Nat.lt_of_le_of_lt hle hfew)
      have hI' := hI.step hs hfew
      obtain ⟨hlt, hacked', hflying'⟩ := ih (Nat.lt_of_le_of_lt hle hfew)
      rw [UInt32.lt_iff_toNat_lt, ← hI.drawn] at hlt
      rw [UInt32.lt_iff_toNat_lt, ← hI'.drawn]
      refine ⟨hlt.trans_le hle, ?_, notMem_step hI hs hlt hflying'⟩
      rw [← List.append_assoc, List.mem_append, not_or]
      refine ⟨hacked', fun hmem => ?_⟩
      obtain ⟨e, -, hflies, -, -⟩ := sendStep_cases (Numbered.step_cases hs).1
      exact hflying' (flying_of_acked hflies hmem).1

/-- A call whose packet cannot be encrypted has drawn its number. -/
theorem resumeSend_refused {t t' : ProtoHopZ P} {i : Nat} {source : Packet}
    {fault : Option ErrorCode} {nonce : Nonce} {now : Nat} {out : List Observation} {ec : Error}
    (hsource : t.Intends i source) (hloop : t.loopError = none) (hopen : t.blocked = false)
    (hec : t.encryptPacket fault nonce (source.withSequence t.sequenceCounter) = .error ec)
    (hs : t.resumeSend i fault nonce now = some (t', out)) :
    t'.inFlight = t.inFlight ∧ t'.sequenceCounter = t.sequenceCounter + 1 ∧
      out = [.drew t.sequenceCounter, .returned i (some ec)] := by
  have hsend : ∀ u : ProtoHopZ P, u.loopError = none → u.blocked = false →
      u.encryptPacket fault nonce (source.withSequence u.sequenceCounter) = .error ec →
      u.sendPacket i source fault nonce now =
        ({ u with
            sequenceCounter := u.sequenceCounter + 1
            sends := Function.update u.sends i (.returned (some ec)) },
          [.drew u.sequenceCounter, .returned i (some ec)]) := by
    intro u huloop huopen huec
    have huec' : { u with sequenceCounter := u.sequenceCounter + 1 }.encryptPacket fault nonce
        (source.withSequence u.sequenceCounter) = .error ec := huec
    unfold sendPacket
    split
    · rename_i ec' hec'
      rw [huloop] at hec'
      cases hec'
    · rw [if_neg (by simp [huopen]), registerPacket]
      dsimp only
      rw [huec']
  rcases hsource with hi | hi
  · rw [resumeSend, hi] at hs
    obtain ⟨rfl, rfl⟩ := Prod.mk.inj ((Option.some.inj hs).symm.trans (hsend t hloop hopen hec))
    exact ⟨rfl, rfl, rfl⟩
  · rw [resumeSend, hi] at hs
    obtain ⟨-, hs⟩ := Option.ite_none_right_eq_some.mp hs
    have hresult := hsend { t with cwnd := t.cwnd.resume i } hloop hopen hec
    obtain ⟨rfl, rfl⟩ := Prod.mk.inj ((Option.some.inj hs).symm.trans hresult)
    exact ⟨rfl, rfl, rfl⟩

/-- A call that fails otherwise leaves a hole. -/
theorem hole_of_fail {tr out : List Observation} {s s' : Numbered P} {ev : SendEvent P}
    (hI : Identity tr s) (hgone : AckedGone tr s) (hs : s.step ev = some (s', out))
    (hloop : s.transport.loopError = none) (hfew : s'.drawn < 2 ^ 32) (hfails : ¬ Keeps s ev) :
    ∃ n, n.toNat < s'.drawn ∧ .acked n ∉ tr ++ out ∧ n ∉ s'.transport.inFlight := by
  have hle := Numbered.drawn_le_step hs
  have hdrawn := Numbered.drawn_eq_step hI.drawn hs hfew
  obtain ⟨ht, hgrow⟩ := Numbered.step_cases hs
  unfold Keeps at hfails
  split at hfails
  · rename_i i fault nonce now
    push Not at hfails
    obtain ⟨source, hsource, hopen, hrefused⟩ := hfails
    obtain ⟨ec, hec⟩ : ∃ ec, s.transport.encryptPacket fault nonce
        (source.withSequence s.transport.sequenceCounter) = .error ec := by
      cases hresult : s.transport.encryptPacket fault nonce
          (source.withSequence s.transport.sequenceCounter) with
      | error ec => exact ⟨ec, rfl⟩
      | ok packet => exact absurd hresult (hrefused packet)
    obtain ⟨hflight, hcounter, hout⟩ := resumeSend_refused hsource hloop hopen hec ht
    refine ⟨s.transport.sequenceCounter, ?_, ?_, ?_⟩
    · rcases hgrow with ⟨hsame, -⟩ | ⟨-, hone⟩
      · rw [hcounter] at hsame
        have := congrArg UInt32.toNat hsame
        rw [UInt32.toNat_add] at this
        have hone : (1 : UInt32).toNat = 1 := rfl
        have hlt := s.transport.sequenceCounter.toNat_lt
        omega
      · rw [hone, hI.drawn]
        exact Nat.lt_succ_self _
    · rw [List.mem_append, not_or]
      refine ⟨fun hmem => ?_, by simp [hout]⟩
      have := (hgone _ hmem).1
      rw [hI.drawn] at this
      exact Nat.lt_irrefl _ this
    · rw [hflight]
      intro hmem
      obtain ⟨l, hl⟩ := Finmap.mem_iff.mp hmem
      have := (hI.flight _ l hl).2
      rw [hI.drawn] at this
      exact Nat.lt_irrefl _ this
  · rename_i i ec
    push Not at hfails
    obtain ⟨packet, hi, hflying⟩ := hfails
    obtain ⟨l, hl⟩ := Finmap.mem_iff.mp hflying
    have hstep : s.transport.finishSend i (some ec) = some (s'.transport, out) := ht
    simp only [finishSend, hi] at hstep
    obtain ⟨hstate, rfl⟩ := Prod.mk.inj (Option.some.inj hstep).symm
    refine ⟨packet.header.sequence, (hI.flight _ l hl).2.trans_le hle, ?_, ?_⟩
    · rw [List.mem_append, not_or]
      exact ⟨fun hmem => (hgone _ hmem).2 hflying, by simp⟩
    · rw [hstate]
      rw [signalIfDrained_eq]
      exact Finmap.notMem_erase_self
  · exact absurd trivial hfails

/-- **A failed call leaves a hole exactly when it has drawn its number** and its packet is not
acknowledged. -/
theorem failed_sends_leave_holes {peer : Endpoint} {tr : List Observation} {s : Numbered P}
    (h : Transition.Run Numbered.step (fun s ev => Undisturbed s ev ∧ Keeps s ev)
      (numbered P peer) tr s) (hloop : s.transport.loopError = none) :
    NoHole tr s ∧ ∀ ev s' out, s.step ev = some (s', out) → ¬ Keeps s ev →
      ∀ tr' s'', Transition.Run Numbered.step Transition.Always s' tr' s'' →
        s''.drawn < 2 ^ 32 → ¬ NoHole (tr ++ out ++ tr') s'' := by
  refine ⟨noHole_run h hloop, fun ev s' out hs hfails tr' s'' h' hfew hno => ?_⟩
  have hrun : Transition.Run Numbered.step Transition.Always (numbered P peer) tr s :=
    h.weaken fun _ _ _ => trivial
  have hfew' := Nat.lt_of_le_of_lt (drawn_le_run h') hfew
  have hbefore := Nat.lt_of_le_of_lt (Numbered.drawn_le_step hs) hfew'
  obtain ⟨n, hn, hacked, hflying⟩ := hole_of_fail (identity_run hrun hbefore)
    (ackedGone_run hrun hbefore) hs hloop hfew' hfails
  have hnext := hrun.next (e := ev) trivial hs
  obtain ⟨hlt, hacked', hflying'⟩ := hole_run hnext h' hfew hn hacked hflying
  rcases (hno n hlt).2 with hmem | hmem
  · exact hacked' hmem
  · exact hflying' hmem

/-- A transport that sends one packet, up to the socket. -/
def sending : List (SendEvent .additive) :=
  [.transport (.startLoops 0),
    .transport (.sendPacket 0 (.blank { type := .data, size := 4, sequence := 0 })),
    .transport (.resumeSend 0 none Nonce.zero 0)]

/-- A test for steps of an unencrypted transport that cannot fail. -/
def keepsTest (s : Numbered .additive) : SendEvent .additive → Bool
  | .transport (.resumeSend ..) =>
      decide (s.transport.loopError = none) && !s.transport.connectionEncrypted
  | .transport (.finishSend _ (some _)) | .transport .resumeStop => false
  | _ => decide (s.transport.loopError = none)

theorem keeps_of_test (s : Numbered .additive) (ev : SendEvent .additive)
    (h : keepsTest s ev = true) : Undisturbed s ev ∧ Keeps s ev := by
  unfold keepsTest at h
  split at h
  · rw [Bool.and_eq_true, decide_eq_true_eq, Bool.not_eq_true'] at h
    refine ⟨⟨h.1, by simp⟩, fun source _ _ => ⟨_, if_pos h.2⟩⟩
  · cases h
  · cases h
  · rename_i hsend hfinish hstop
    refine ⟨⟨of_decide_eq_true h, hstop⟩, ?_⟩
    unfold Keeps
    split
    · exact absurd rfl (hsend _ _ _ _)
    · exact absurd rfl (hfinish _ _)
    · trivial

theorem failed_sends_leave_holes_none : ∃ tr s,
    Transition.Run Numbered.step (fun s ev => Undisturbed s ev ∧ Keeps s ev)
      (numbered .additive ⟨1, 9⟩) tr s ∧ s.drawn = 1 ∧ NoHole tr s := by
  obtain ⟨tr, s, hrun, hp⟩ := Transition.exists_run Numbered.step
    (fun s ev => Undisturbed s ev ∧ Keeps s ev) (numbered .additive ⟨1, 9⟩) sending
    (fun _ s => decide (s.drawn = 1) && decide (s.transport.loopError = none))
    keepsTest keeps_of_test (by decide +kernel)
  rw [Bool.and_eq_true, decide_eq_true_eq, decide_eq_true_eq] at hp
  exact ⟨tr, s, hrun, hp.1, (failed_sends_leave_holes hrun hp.2).1⟩

/-- The socket refuses the only packet. -/
theorem refused_packet_leaves_hole :
    ¬ ∀ (tr : List Observation) (s : Numbered Primitives.additive),
      Transition.Run Numbered.step Undisturbed (numbered .additive ⟨1, 9⟩) tr s →
      s.transport.loopError = none → (∀ i p b, s.transport.sends i ≠ .sending p b) →
      NoHole tr s := by
  intro h
  have hrun : Transition.Run Numbered.step Undisturbed (numbered .additive ⟨1, 9⟩) _ _ :=
    (((Transition.Run.start.next ⟨rfl, by simp⟩
      (rfl : Numbered.step _ (.transport (.startLoops 0)) = _)).next ⟨rfl, by simp⟩
      (rfl : Numbered.step _ (.transport (.sendPacket 0
        (.blank { type := .data, size := 4, sequence := 0 }))) = _)).next ⟨rfl, by simp⟩
      (rfl : Numbered.step _ (.transport (.resumeSend 0 none Nonce.zero 0)) = _)).next
      ⟨rfl, by simp⟩
      (rfl : Numbered.step _ (.transport (.finishSend 0 (some (.system 101)))) = _)
  have hquiet : ∀ f : Nat → SendFrame, (∀ i p b, f i ≠ .sending p b) → ∀ source packet ec i p b,
      Function.update (Function.update (Function.update f 0 (.posted source)) 0
        (.sending packet false)) 0 (.returned ec) i ≠ .sending p b := by
    intro f hf source packet ec i p b
    by_cases hi : i = 0
    · simp [hi]
    · simpa [hi] using hf i p b
  have hno := h _ _ hrun rfl (hquiet (fun _ => .idle) (by simp) _ _ _) 0 (by decide)
  have hnone : ∀ l : List Observation,
      l.all (fun | .acked _ => false | _ => true) = true → .acked 0 ∉ l := by
    intro l hl hmem
    cases List.all_eq_true.mp hl _ hmem
  rcases hno.2 with hacked | hflying
  · exact hnone _ rfl hacked
  · exact absurd hflying Finmap.notMem_erase_self

end ProtoHopZ
end FileHopZ
