import AcdEngine.Schedule
/-!
# The phase invariant

What the state of a context says about its counters: `sent_num` counts the probes or
the announces of the phase, `ttw` stays within the wait the phase last set, the
conflict count is clear while the address is in use, and `lastconflict` stays within
`DEFEND_INTERVAL`. A zeroed context has these properties (`PhaseInv`), and every call
keeps them when `PROBE_NUM` and `ANNOUNCE_NUM` are in the range of the `u16`
`sent_num`. Beyond it `sent_num` wraps to 0 in the middle of a phase: with
`PROBE_NUM = 2^16`, the 2^16-th probe leaves the context `PROBING` with `sent_num = 0`.

- `phase_invariant`: with `PROBE_NUM` and `ANNOUNCE_NUM` below 2^16, a zeroed context
  keeps `PhaseInv`, every entry point keeps it for every context, and so every context
  keeps it along every run from contexts that have it.
- `phase_invariant_wraps`: with `PROBE_NUM = 2^16` a fresh context loses it after
  `acd_start` and 2^16 ticks.
-/

namespace AcdEngine

variable (cfg : Config)

/-- What the state of a context says about `sent_num` and `ttw`, `P` and `A` being
`probeCount` and `announceCount`. -/
def PhaseBounds (a : Acd) : Prop :=
  match a.state with
  | .probeWait => a.sentNum = 0 ∧ a.ttw < max cfg.probeWaitTicks 1
  | .probing => 1 ≤ a.sentNum ∧ a.sentNum < probeCount cfg ∧
      a.ttw ≤ max cfg.probeMinTicks (cfg.probeMaxTicks - 1)
  | .announceWait => a.sentNum = 0 ∧ a.ttw ≤ cfg.acdAnnounceWaitTicksValue
  | .announcing => 1 ≤ a.sentNum ∧ a.sentNum < announceCount cfg ∧
      a.ttw ≤ cfg.acdAnnounceIntervalTicksValue
  | .ongoing => a.sentNum = 0 ∧ a.ttw ≤ cfg.acdPeriodicDefendIntervalTicks
  | .rateLimit => a.ttw ≤ cfg.rateLimitTicks
  | .off | .passiveOngoing => True

/-- The phase invariant of a context: the bounds of its state, the conflict count
clear while the address is in use, and `lastconflict` within `DEFEND_INTERVAL`. -/
structure PhaseInv (a : Acd) : Prop where
  bounds : PhaseBounds cfg a
  inUse : a.state.IsInUse → a.numConflicts = 0
  lastconflict : a.lastconflict ≤ cfg.defendTicks

variable {cfg}

/-! ## Contexts that keep the invariant -/

theorem phaseInv_zero : PhaseInv cfg Acd.zero where
  bounds := trivial
  inUse := by simp [Acd.zero, AcdState.IsInUse]
  lastconflict := Nat.zero_le _

/-- The bounds only read the state, `sent_num` and `ttw`, and hold for a shorter wait. -/
theorem PhaseBounds.of_le {a b : Acd} (h : PhaseBounds cfg a) (hs : b.state = a.state)
    (hn : b.sentNum = a.sentNum) (ht : b.ttw ≤ a.ttw) : PhaseBounds cfg b := by
  cases hst : a.state <;> simp only [PhaseBounds, hs, hn, hst] at h ⊢ <;> omega

theorem phaseInv_off {b : Acd} (hs : b.state = .off) (hl : b.lastconflict ≤ cfg.defendTicks) :
    PhaseInv cfg b :=
  ⟨by simp [PhaseBounds, hs], by simp [hs, AcdState.IsInUse], hl⟩

theorem phaseInv_rateLimit {b : Acd} (hs : b.state = .rateLimit) (ht : b.ttw ≤ cfg.rateLimitTicks)
    (hl : b.lastconflict ≤ cfg.defendTicks) : PhaseInv cfg b :=
  ⟨by simpa [PhaseBounds, hs] using ht, by simp [hs, AcdState.IsInUse], hl⟩

/-! ## Each call keeps it -/

theorem phaseInv_acdStart (rand : Nat) (ip : Ip4Addr) (a : Acd) :
    PhaseInv cfg (acdStart cfg rand ip a) :=
  ⟨by simpa [PhaseBounds, acdStart] using (acdRandomProbeWait_lt cfg rand).1,
    by simp [acdStart, AcdState.IsInUse], Nat.zero_le _⟩

theorem phaseInv_acdRestart {a : Acd} (h : PhaseInv cfg a) : PhaseInv cfg (acdRestart cfg a).1 := by
  unfold acdRestart; dsimp only
  split_ifs
  · exact phaseInv_rateLimit rfl (by simp [u16_of_lt cfg.rateLimitTicks_lt]) h.lastconflict
  · exact phaseInv_off rfl h.lastconflict

theorem phaseInv_arp {a : Acd} (h : PhaseInv cfg a) (m : EthAddr) (hdr : EtharpHdr) :
    PhaseInv cfg (acdArpReplyEntry cfg m hdr a).1 := by
  rw [acdArpReplyEntry_eq]
  split_ifs
  · exact phaseInv_acdRestart h
  · unfold acdHandleArpConflict
    split_ifs
    · exact phaseInv_off rfl h.lastconflict
    · exact phaseInv_acdRestart h
    · -- defended: only `lastconflict` is set
      exact ⟨h.bounds.of_le rfl rfl le_rfl, h.inUse, le_rfl⟩
  · exact h

theorem phaseInv_ipAddrChanged {a : Acd} (h : PhaseInv cfg a) (old new : Ip4Addr) :
    PhaseInv cfg (acdStep cfg a (.ipAddrChanged old new)).1 := by
  rw [acdStep_ipAddrChanged]
  split_ifs
  · unfold acdPutInPassiveMode
    cases hs : a.state <;> simp only
    all_goals first
      | exact h
      | exact phaseInv_off rfl h.lastconflict
      | exact ⟨trivial, fun _ => h.inUse (by simp [hs, AcdState.IsInUse]), h.lastconflict⟩
  · exact h

/-- A tick keeps the invariant: the countdowns only shorten the wait, and each expiry
sets the counters and the wait of the phase it enters. -/
theorem phaseInv_tmr (hP : cfg.probeNum < 2 ^ 16) (hA : cfg.announceNum < 2 ^ 16) {a : Acd}
    (h : PhaseInv cfg a) (rand : Nat) : PhaseInv cfg (acdTmrEntry cfg rand a).1 := by
  have hl : (acdTmrEntry cfg rand a).1.lastconflict ≤ cfg.defendTicks := by
    rw [acdTmrEntry_lastconflict]; exact (Nat.sub_le _ _).trans h.lastconflict
  suffices PhaseBounds cfg (acdTmrEntry cfg rand a).1 ∧
      ((acdTmrEntry cfg rand a).1.state.IsInUse → (acdTmrEntry cfg rand a).1.numConflicts = 0) from
    ⟨this.1, this.2, hl⟩
  have hb := h.bounds
  -- in the announce phase a nonzero `sent_num` means `ANNOUNCING`, below `A`
  have hann : a.state = .announceWait ∨ a.state = .announcing → a.sentNum ≠ 0 →
      a.state = .announcing ∧ a.sentNum < announceCount cfg ∧ a.numConflicts = 0 := by
    rintro (hs | hs) hz
    · simp only [PhaseBounds, hs] at hb; exact absurd hb.1 hz
    · simp only [PhaseBounds, hs] at hb; exact ⟨hs, hb.2.1, h.inUse (.inl hs)⟩
  rcases acdTmrEntry_cases rand a with he | ⟨hs, -, hn, he⟩ | ⟨-, -, -, he⟩ | ⟨hs, -, hn, he⟩ |
      ⟨hs, -, -, he⟩ | ⟨hs, -, -, he⟩ | ⟨-, -, he⟩ <;> rw [he]
  · -- the countdowns only
    refine ⟨hb.of_le (tmrCountdown_state a) (tmrCountdown_sentNum a) ?_, ?_⟩
    · rw [tmrCountdown_ttw]; exact Nat.sub_le _ _
    · rw [tmrCountdown_state, tmrCountdown_numConflicts]; exact h.inUse
  · -- another probe: `sent_num` was below `P`
    have hsn : a.sentNum < probeCount cfg := by
      rcases hs with hs | hs <;> simp only [PhaseBounds, hs] at hb
      · rw [hb.1, probeCount]; omega
      · exact hb.2.1
    have hu : u16 (a.sentNum + 1) = a.sentNum + 1 := u16_of_lt (by rw [probeCount] at hsn; omega)
    refine ⟨?_, by simp [AcdState.IsInUse]⟩
    simp only [PhaseBounds, hu, probeCount]
    rw [hu] at hn
    exact ⟨by omega, by omega, (acdRandomProbeInterval_mem cfg rand).2⟩
  · -- the last probe: the announce wait
    exact ⟨by simp [PhaseBounds], by simp [AcdState.IsInUse]⟩
  · -- another announce
    by_cases hz : a.sentNum = 0
    · simp only [hz, if_true, u16_of_lt (show 0 + 1 < 2 ^ 16 by decide)] at hn ⊢
      exact ⟨by simp [PhaseBounds, announceCount]; omega, fun _ => trivial⟩
    · obtain ⟨hs, hsn, hc⟩ := hann hs hz
      have hu : u16 (a.sentNum + 1) = a.sentNum + 1 :=
        u16_of_lt (by rw [announceCount] at hsn; omega)
      simp only [hz, if_false, hs, hu] at hn ⊢
      exact ⟨by simp [PhaseBounds, announceCount]; omega, fun _ => hc⟩
  · -- the last announce: `ONGOING`
    refine ⟨by simp [PhaseBounds], fun _ => ?_⟩
    by_cases hz : a.sentNum = 0
    · simp [hz]
    · simp [hz, (hann hs hz).2.2]
  · -- the periodic probe
    simp only [PhaseBounds, hs] at hb
    exact ⟨by simp [PhaseBounds, hs, hb.1], by simpa using h.inUse⟩
  · -- the end of the rate limit
    exact ⟨by simp [PhaseBounds], by simp [AcdState.IsInUse]⟩

/-- Every call keeps the invariant of a context. -/
theorem phaseInv_step (hP : cfg.probeNum < 2 ^ 16) (hA : cfg.announceNum < 2 ^ 16) {a : Acd}
    (h : PhaseInv cfg a) : ∀ i, PhaseInv cfg (acdStep cfg a i).1
  | .acdStart rand ip => phaseInv_acdStart rand ip a
  | .acdStop => phaseInv_off rfl h.lastconflict
  | .acdTmr rand => phaseInv_tmr hP hA h rand
  | .acdArpReply m hdr => phaseInv_arp h m hdr
  | .ipAddrChanged old new => phaseInv_ipAddrChanged h old new

/-- Every call reaching a context keeps its invariant, along a whole run. -/
theorem phaseInv_execPost (hP : cfg.probeNum < 2 ^ 16) (hA : cfg.announceNum < 2 ^ 16) :
    ∀ {a : Acd} (is : List Input), PhaseInv cfg a → PhaseInv cfg (execPost cfg a is)
  | _, [], h => h
  | _, i :: is, h => phaseInv_execPost hP hA is (phaseInv_step hP hA h i)

/-! ## Every context of the engine -/

variable (cfg)

/-- The phase invariant `PhaseInv`, the bounds of each state: with `PROBE_NUM` and
`ANNOUNCE_NUM` in the range of `sent_num`, a zeroed context has it; `acd_start`,
`acd_stop`, `acd_tmr`, `acd_arp_reply`, `acd_network_changed_link_down` and
`acd_netif_ip_addr_changed` keep it for every context; and so every context has it after
every run from contexts that have it. -/
theorem phase_invariant (hP : cfg.probeNum < 2 ^ 16) (hA : cfg.announceNum < 2 ^ 16) :
    PhaseInv cfg Acd.zero ∧
    (∀ (s : Stack) (ev : Event), (∀ q, PhaseInv cfg (s.acds q)) →
      ∀ q, PhaseInv cfg ((s.step cfg ev).1.acds q)) ∧
    ∀ (s : Stack) (evs : List Event), (∀ q, PhaseInv cfg (s.acds q)) →
      ∀ q, PhaseInv cfg ((s.run cfg evs).acds q) := by
  refine ⟨phaseInv_zero, fun s ev h q => ?_, fun s evs h q => ?_⟩
  · have hq := congrArg Prod.fst (s.step_at cfg ev q)
    simp only at hq
    rw [hq]
    split
    · exact phaseInv_step hP hA (h q) _
    · exact h q
  · rw [Stack.run_acds]
    exact phaseInv_execPost hP hA _ (h q)

theorem phase_invariant_specConfig :
    (specConfig.probeNum < 2 ^ 16 ∧ specConfig.announceNum < 2 ^ 16) ∧
      (PhaseInv specConfig Acd.zero ∧
        (∀ (s : Stack) (ev : Event), (∀ q, PhaseInv specConfig (s.acds q)) →
          ∀ q, PhaseInv specConfig ((s.step specConfig ev).1.acds q)) ∧
        ∀ (s : Stack) (evs : List Event), (∀ q, PhaseInv specConfig (s.acds q)) →
          ∀ q, PhaseInv specConfig ((s.run specConfig evs).acds q)) :=
  ⟨⟨by decide, by decide⟩, phase_invariant specConfig (by decide) (by decide)⟩

/-! ## Past the range of `sent_num` -/

/-- `PROBE_NUM = 2^16` on 100 ms ticks, with no probe wait and probes one tick apart. -/
def wideProbeConfig : Config :=
  { specConfig with probeNum := 2 ^ 16, probeMinMs := 100, probeMaxMs := 100 }

/-- With `wideProbeConfig`, after `acd_start` every tick probes and waits one tick, and
`sent_num` counts the probes modulo 2^16. -/
theorem wideProbe_ticks (a : Acd) (ip : Ip4Addr) (k : Nat) :
    execPost wideProbeConfig (acdStart wideProbeConfig 0 ip a) (List.replicate (k + 1) (.acdTmr 0)) =
      { acdStart wideProbeConfig 0 ip a with state := .probing, sentNum := u16 (k + 1), ttw := 1 } := by
  have hgap : u16 (wideProbeConfig.acdRandomProbeInterval 0) = 1 := by decide
  have hnum (n : Nat) : ¬ wideProbeConfig.probeNum ≤ u16 n := Nat.not_le.2 (u16_lt n)
  induction k with
  | zero =>
    have hwait : u16 (wideProbeConfig.acdRandomProbeWait 0) = 0 := by decide
    rw [List.replicate_one, execPost_cons, acdStep, acdTmrEntry_probe 0 (.inl rfl)]
    have h1 : ¬ wideProbeConfig.probeNum ≤ 1 := by decide
    simp [acdStart, tmrCountdown_eq, hgap, hwait, h1, execPost]
  | succ k ih =>
    have hmod : u16 (u16 (k + 1) + 1) = u16 (k + 1 + 1) := Nat.mod_add_mod _ _ _
    rw [List.replicate_succ', execPost_append, ih, execPost_cons, acdStep,
      acdTmrEntry_probe 0 (.inr rfl)]
    simp [acdStart, tmrCountdown_eq, hgap, hnum, hmod, execPost]

/-- With `PROBE_NUM = 2^16` the invariant fails: after `acd_start` and 2^16 ticks, the
2^16-th probe has wrapped `sent_num` to 0 and the context is `PROBING`. -/
theorem phase_invariant_wraps :
    (∀ q, PhaseInv wideProbeConfig (soloStack.acds q)) ∧
      ¬ PhaseInv wideProbeConfig ((soloStack.run wideProbeConfig
        (.acdStart 0 linkLocalAddr 0 :: List.replicate (2 ^ 16) (.acdTmr fun _ => 0))).acds 0) := by
  refine ⟨fun _ => phaseInv_zero, fun h => ?_⟩
  have hin : (Event.acdStart 0 linkLocalAddr 0 :: List.replicate (2 ^ 16) (.acdTmr fun _ => 0)).filterMap
      (inputFor soloStack.netifList 0) = .acdStart 0 linkLocalAddr :: List.replicate (2 ^ 16) (.acdTmr 0) := by
    rw [List.filterMap_cons, List.filterMap_replicate_of_some
      (by decide : inputFor soloStack.netifList 0 (.acdTmr fun _ => 0) = some (.acdTmr 0))]
    rfl
  have hk := wideProbe_ticks Acd.zero linkLocalAddr (2 ^ 16 - 1)
  rw [Nat.sub_add_cancel Nat.one_le_two_pow] at hk
  rw [Stack.run_acds, hin, execPost_cons, acdStep_acdStart, show soloStack.acds 0 = Acd.zero from rfl,
    hk] at h
  have hb := h.bounds
  simp [PhaseBounds, u16] at hb

end AcdEngine
