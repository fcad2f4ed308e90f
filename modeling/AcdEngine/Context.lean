import AcdEngine.Types
/-!
# One detection context

The functions of acd.c restricted to one `struct acd`: `acd_start`,
`acd_stop`, the loop bodies of `acd_tmr`, `acd_arp_reply` and
`acd_netif_ip_addr_changed`, and the static helpers they call. Each returns
the context after the call and what it did to the outside, in order. The
conflict callback and the two diagnostic hooks only record (`Action`).

`acdStep` gathers them: what one engine call does to one context. Everything
about runs is proved from it and from the small lemmas at the end, among them
`acdTmrEntry_cases`, everything one tick can do.
-/

namespace AcdEngine

variable (cfg : Config)

/-- `acd_start`: reset the probe state and draw the initial wait. -/
def acdStart (rand : Nat) (ipaddr : Ip4Addr) (acd : Acd) : Acd :=
  let acd := { acd with sentNum := 0, lastconflict := 0, ipaddr := ipaddr, state := .probeWait }
  { acd with ttw := u16 (cfg.acdRandomProbeWait rand) }

/-- `acd_stop`. -/
def acdStop (acd : Acd) : Acd := { acd with state := .off }

/-- The two countdowns at the top of `acd_tmr`'s loop body. -/
def tmrCountdown (acd : Acd) : Acd :=
  let acd := if acd.lastconflict > 0 then { acd with lastconflict := acd.lastconflict - 1 } else acd
  if acd.ttw > 0 then { acd with ttw := acd.ttw - 1 } else acd

/-- The `switch (acd->state)` of `acd_tmr`'s loop body; `rand` is what
`LWIP_ACD_RAND` returns if this call draws. -/
def tmrSwitch (rand : Nat) (acd : Acd) : Acd × List Action :=
  match acd.state with
  | .probeWait | .probing =>
    if acd.ttw = 0 then
      let acd := { acd with state := .probing }
      let acd := { acd with sentNum := u16 (acd.sentNum + 1) }
      if acd.sentNum ≥ cfg.probeNum then
        ({ acd with state := .announceWait, sentNum := 0, ttw := cfg.acdAnnounceWaitTicksValue },
          [.etharpAcdProbe acd.ipaddr])
      else
        ({ acd with ttw := u16 (cfg.acdRandomProbeInterval rand) }, [.etharpAcdProbe acd.ipaddr])
    else (acd, [])
  | .announceWait | .announcing =>
    if acd.ttw = 0 then
      let acd := if acd.sentNum = 0 then { acd with state := .announcing, numConflicts := 0 } else acd
      let acd := { acd with ttw := cfg.acdAnnounceIntervalTicksValue, sentNum := u16 (acd.sentNum + 1) }
      if acd.sentNum ≥ cfg.announceNum then
        ({ acd with state := .ongoing, sentNum := 0, ttw := cfg.acdPeriodicDefendIntervalTicks },
          [.etharpAcdAnnounce acd.ipaddr, .callback .ipOk])
      else (acd, [.etharpAcdAnnounce acd.ipaddr])
    else (acd, [])
  | .ongoing =>
    if cfg.periodicDefendOn ∧ acd.ttw = 0 then
      ({ acd with ttw := cfg.acdPeriodicDefendIntervalTicks }, [.etharpAcdProbe acd.ipaddr])
    else (acd, [])
  | .passiveOngoing => (acd, [])
  | .rateLimit =>
    if acd.ttw = 0 then (acdStop acd, [.callback .restartClient]) else (acd, [])
  | .off => (acd, [])

/-- The body of `acd_tmr`'s `ACD_FOREACH` loop. -/
def acdTmrEntry (rand : Nat) (acd : Acd) : Acd × List Action :=
  tmrSwitch cfg rand (tmrCountdown acd)

/-- `acd_restart`: count the conflict, decline, then rate-limit or stop. -/
def acdRestart (acd : Acd) : Acd × List Action :=
  let acd := { acd with numConflicts := u16 (acd.numConflicts + 1) }
  if acd.numConflicts ≥ cfg.maxConflicts then
    ({ acd with state := .rateLimit, ttw := u16 cfg.rateLimitTicks }, [.callback .decline])
  else (acdStop acd, [.callback .decline, .callback .restartClient])

/-- `acd_handle_arp_conflict`: retreat in passive mode, restart on a second
conflict within `DEFEND_INTERVAL`, defend otherwise (RFC 5227 §2.4 a and b). -/
def acdHandleArpConflict (acd : Acd) : Acd × List Action :=
  if acd.state = .passiveOngoing then (acdStop acd, [.callback .decline])
  else if acd.lastconflict > 0 then acdRestart cfg acd
  else ({ acd with lastconflict := cfg.defendTicks }, [.etharpAcdAnnounce acd.ipaddr])

/-- The two diagnostic hooks called on every conflict. -/
def recordConflict (hdr : EtharpHdr) : List Action :=
  [.cipTcpIpSetLastAcdMac hdr.shwaddr, .cipTcpIpSetLastAcdRawData hdr]

/-- The body of `acd_arp_reply`'s second `ACD_FOREACH` loop, on an interface
with hardware address `netifaddr`. -/
def acdArpReplyEntry (netifaddr : EthAddr) (hdr : EtharpHdr) (acd : Acd) : Acd × List Action :=
  match acd.state with
  | .off | .rateLimit => (acd, [])
  | .probeWait | .probing | .announceWait =>
    if (hdr.sipaddr = acd.ipaddr ∧ netifaddr ≠ hdr.shwaddr) ∨
        (hdr.sipaddr.IsAny ∧ hdr.dipaddr = acd.ipaddr ∧ netifaddr ≠ hdr.shwaddr) then
      let r := acdRestart cfg acd
      (r.1, recordConflict hdr ++ r.2)
    else (acd, [])
  | .announcing | .ongoing | .passiveOngoing =>
    if hdr.sipaddr = acd.ipaddr ∧ netifaddr ≠ hdr.shwaddr then
      let r := acdHandleArpConflict cfg acd
      (r.1, recordConflict hdr ++ r.2)
    else (acd, [])

/-- `acd_put_in_passive_mode`. -/
def acdPutInPassiveMode (acd : Acd) : Acd × List Action :=
  match acd.state with
  | .off | .passiveOngoing => (acd, [])
  | .probeWait | .probing | .announceWait | .rateLimit => (acdStop acd, [.callback .decline])
  | .announcing | .ongoing => ({ acd with state := .passiveOngoing }, [])

/-- The body of `acd_netif_ip_addr_changed`'s `ACD_FOREACH` loop. -/
def acdIpAddrChangedEntry (old new : Ip4Addr) (acd : Acd) : Acd × List Action :=
  if acd.ipaddr = old then
    if old.IsLinkLocal ∧ ¬ new.IsLinkLocal then acdPutInPassiveMode acd else (acd, [])
  else (acd, [])

/-- One engine call as one context sees it. `acd_network_changed_link_down`
reaches each context as an `acdStop`. -/
inductive Input where
  | acdStart (rand : Nat) (ipaddr : Ip4Addr)
  | acdStop
  | acdTmr (rand : Nat)
  | acdArpReply (netifaddr : EthAddr) (hdr : EtharpHdr)
  | ipAddrChanged (old new : Ip4Addr)
  deriving DecidableEq, Repr

/-- The call is `acd_tmr`. -/
def Input.isTmr : Input → Bool
  | .acdTmr _ => true
  | _ => false

/-- The call is `acd_start`. -/
def Input.isStart : Input → Bool
  | .acdStart _ _ => true
  | _ => false

/-- What one engine call does to one context. -/
def acdStep (acd : Acd) : Input → Acd × List Action
  | .acdStart rand ipaddr => (acdStart cfg rand ipaddr acd, [])
  | .acdStop => (acdStop acd, [])
  | .acdTmr rand => acdTmrEntry cfg rand acd
  | .acdArpReply netifaddr hdr => acdArpReplyEntry cfg netifaddr hdr acd
  | .ipAddrChanged old new =>
    if old.IsAny ∨ new.IsAny then (acd, []) else acdIpAddrChangedEntry old new acd

/-! ## Small lemmas -/

@[simp] theorem acdStop_state (acd : Acd) : (acdStop acd).state = .off := rfl

theorem tmrCountdown_eq (acd : Acd) :
    tmrCountdown acd = { acd with lastconflict := acd.lastconflict - 1, ttw := acd.ttw - 1 } := by
  obtain ⟨ip, st, sn, t, lc, nc⟩ := acd
  simp only [tmrCountdown, gt_iff_lt]
  by_cases h1 : 0 < lc <;> by_cases h2 : 0 < t <;> simp [h1, h2] <;> omega

@[simp] theorem tmrCountdown_state (acd : Acd) : (tmrCountdown acd).state = acd.state := by
  rw [tmrCountdown_eq]

@[simp] theorem tmrCountdown_ipaddr (acd : Acd) : (tmrCountdown acd).ipaddr = acd.ipaddr := by
  rw [tmrCountdown_eq]

@[simp] theorem tmrCountdown_sentNum (acd : Acd) : (tmrCountdown acd).sentNum = acd.sentNum := by
  rw [tmrCountdown_eq]

@[simp] theorem tmrCountdown_numConflicts (acd : Acd) :
    (tmrCountdown acd).numConflicts = acd.numConflicts := by
  rw [tmrCountdown_eq]

@[simp] theorem tmrCountdown_ttw (acd : Acd) : (tmrCountdown acd).ttw = acd.ttw - 1 := by
  rw [tmrCountdown_eq]

@[simp] theorem tmrCountdown_lastconflict (acd : Acd) :
    (tmrCountdown acd).lastconflict = acd.lastconflict - 1 := by
  rw [tmrCountdown_eq]

@[simp] theorem acdStart_state (rand : Nat) (ipaddr : Ip4Addr) (acd : Acd) :
    (acdStart cfg rand ipaddr acd).state = .probeWait := rfl

@[simp] theorem acdStep_acdStart (acd : Acd) (rand : Nat) (ipaddr : Ip4Addr) :
    acdStep cfg acd (.acdStart rand ipaddr) = (acdStart cfg rand ipaddr acd, []) := rfl

@[simp] theorem acdRestart_lastconflict (acd : Acd) :
    (acdRestart cfg acd).1.lastconflict = acd.lastconflict := by
  unfold acdRestart; dsimp only; split_ifs <;> rfl

@[simp] theorem acdRestart_ipaddr (acd : Acd) : (acdRestart cfg acd).1.ipaddr = acd.ipaddr := by
  unfold acdRestart; dsimp only; split_ifs <;> rfl

@[simp] theorem acdPutInPassiveMode_lastconflict (acd : Acd) :
    (acdPutInPassiveMode acd).1.lastconflict = acd.lastconflict := by
  unfold acdPutInPassiveMode; split <;> rfl

@[simp] theorem acdPutInPassiveMode_ipaddr (acd : Acd) :
    (acdPutInPassiveMode acd).1.ipaddr = acd.ipaddr := by
  unfold acdPutInPassiveMode; split <;> rfl

/-! ## What a tick does, by state -/

section Tick

variable {cfg} {acd : Acd} (rand : Nat)

theorem acdTmrEntry_quiet (h : acd.state = .off ∨ acd.state = .passiveOngoing) :
    acdTmrEntry cfg rand acd = (tmrCountdown acd, []) := by
  unfold acdTmrEntry tmrSwitch
  rw [tmrCountdown_eq]
  rcases h with h | h <;> simp [h]

theorem acdTmrEntry_rateLimit (h : acd.state = .rateLimit) :
    acdTmrEntry cfg rand acd =
      if acd.ttw ≤ 1 then ({ tmrCountdown acd with state := .off }, [.callback .restartClient])
      else (tmrCountdown acd, []) := by
  unfold acdTmrEntry tmrSwitch
  rw [tmrCountdown_eq]
  by_cases ht : acd.ttw ≤ 1 <;> simp [h, ht, acdStop]; omega

theorem acdTmrEntry_ongoing (h : acd.state = .ongoing) :
    acdTmrEntry cfg rand acd =
      if cfg.periodicDefendOn ∧ acd.ttw ≤ 1 then
        ({ tmrCountdown acd with ttw := cfg.acdPeriodicDefendIntervalTicks },
          [.etharpAcdProbe acd.ipaddr])
      else (tmrCountdown acd, []) := by
  unfold acdTmrEntry tmrSwitch
  rw [tmrCountdown_eq]
  by_cases ht : acd.ttw ≤ 1 <;> simp [h, ht]; omega

theorem acdTmrEntry_probe (h : acd.state = .probeWait ∨ acd.state = .probing) :
    acdTmrEntry cfg rand acd =
      if acd.ttw ≤ 1 then
        if cfg.probeNum ≤ u16 (acd.sentNum + 1) then
          ({ tmrCountdown acd with
              state := .announceWait, sentNum := 0, ttw := cfg.acdAnnounceWaitTicksValue },
            [.etharpAcdProbe acd.ipaddr])
        else
          ({ tmrCountdown acd with
              state := .probing, sentNum := u16 (acd.sentNum + 1),
              ttw := u16 (cfg.acdRandomProbeInterval rand) }, [.etharpAcdProbe acd.ipaddr])
      else (tmrCountdown acd, []) := by
  have ht : acd.ttw - 1 = 0 ↔ acd.ttw ≤ 1 := by omega
  unfold acdTmrEntry tmrSwitch
  rw [tmrCountdown_eq]
  rcases h with h | h <;> simp [h, ht]

theorem acdTmrEntry_announce (h : acd.state = .announceWait ∨ acd.state = .announcing) :
    acdTmrEntry cfg rand acd =
      if acd.ttw ≤ 1 then
        let acd' := if acd.sentNum = 0 then
          { tmrCountdown acd with state := .announcing, numConflicts := 0 } else tmrCountdown acd
        if cfg.announceNum ≤ u16 (acd.sentNum + 1) then
          ({ acd' with state := .ongoing, sentNum := 0, ttw := cfg.acdPeriodicDefendIntervalTicks },
            [.etharpAcdAnnounce acd.ipaddr, .callback .ipOk])
        else
          ({ acd' with ttw := cfg.acdAnnounceIntervalTicksValue, sentNum := u16 (acd.sentNum + 1) },
            [.etharpAcdAnnounce acd.ipaddr])
      else (tmrCountdown acd, []) := by
  have ht : acd.ttw - 1 = 0 ↔ acd.ttw ≤ 1 := by omega
  unfold acdTmrEntry tmrSwitch
  rw [tmrCountdown_eq]
  rcases h with h | h <;> simp only [h, ht] <;> by_cases hs : acd.sentNum = 0 <;> simp [hs]

/-- Everything one tick can do to a context: count down and stay, or take one
of the six expiries of `acd_tmr`'s switch, each under its guard. -/
theorem acdTmrEntry_cases (acd : Acd) :
    acdTmrEntry cfg rand acd = (tmrCountdown acd, []) ∨
    ((acd.state = .probeWait ∨ acd.state = .probing) ∧ acd.ttw ≤ 1 ∧
      ¬cfg.probeNum ≤ u16 (acd.sentNum + 1) ∧
      acdTmrEntry cfg rand acd = ({ tmrCountdown acd with
        state := .probing, sentNum := u16 (acd.sentNum + 1),
        ttw := u16 (cfg.acdRandomProbeInterval rand) }, [.etharpAcdProbe acd.ipaddr])) ∨
    ((acd.state = .probeWait ∨ acd.state = .probing) ∧ acd.ttw ≤ 1 ∧
      cfg.probeNum ≤ u16 (acd.sentNum + 1) ∧
      acdTmrEntry cfg rand acd = ({ tmrCountdown acd with
        state := .announceWait, sentNum := 0, ttw := cfg.acdAnnounceWaitTicksValue },
        [.etharpAcdProbe acd.ipaddr])) ∨
    ((acd.state = .announceWait ∨ acd.state = .announcing) ∧ acd.ttw ≤ 1 ∧
      ¬cfg.announceNum ≤ u16 (acd.sentNum + 1) ∧
      acdTmrEntry cfg rand acd = ({ tmrCountdown acd with
        state := if acd.sentNum = 0 then .announcing else acd.state,
        numConflicts := if acd.sentNum = 0 then 0 else acd.numConflicts,
        ttw := cfg.acdAnnounceIntervalTicksValue, sentNum := u16 (acd.sentNum + 1) },
        [.etharpAcdAnnounce acd.ipaddr])) ∨
    ((acd.state = .announceWait ∨ acd.state = .announcing) ∧ acd.ttw ≤ 1 ∧
      cfg.announceNum ≤ u16 (acd.sentNum + 1) ∧
      acdTmrEntry cfg rand acd = ({ tmrCountdown acd with
        state := .ongoing, numConflicts := if acd.sentNum = 0 then 0 else acd.numConflicts,
        sentNum := 0, ttw := cfg.acdPeriodicDefendIntervalTicks },
        [.etharpAcdAnnounce acd.ipaddr, .callback .ipOk])) ∨
    (acd.state = .ongoing ∧ cfg.periodicDefendOn ∧ acd.ttw ≤ 1 ∧
      acdTmrEntry cfg rand acd =
        ({ tmrCountdown acd with ttw := cfg.acdPeriodicDefendIntervalTicks },
          [.etharpAcdProbe acd.ipaddr])) ∨
    (acd.state = .rateLimit ∧ acd.ttw ≤ 1 ∧
      acdTmrEntry cfg rand acd = ({ tmrCountdown acd with state := .off }, [.callback .restartClient])) := by
  by_cases hp : acd.state = .probeWait ∨ acd.state = .probing
  · by_cases ht : acd.ttw ≤ 1
    · by_cases hn : cfg.probeNum ≤ u16 (acd.sentNum + 1)
      · exact .inr (.inr (.inl ⟨hp, ht, hn, by rw [acdTmrEntry_probe rand hp, if_pos ht, if_pos hn]⟩))
      · exact .inr (.inl ⟨hp, ht, hn, by rw [acdTmrEntry_probe rand hp, if_pos ht, if_neg hn]⟩)
    · exact .inl (by rw [acdTmrEntry_probe rand hp, if_neg ht])
  by_cases ha : acd.state = .announceWait ∨ acd.state = .announcing
  · by_cases ht : acd.ttw ≤ 1
    · by_cases hn : cfg.announceNum ≤ u16 (acd.sentNum + 1)
      · refine .inr (.inr (.inr (.inr (.inl ⟨ha, ht, hn, ?_⟩))))
        simp only [acdTmrEntry_announce rand ha, if_pos ht, if_pos hn]; split_ifs <;> simp
      · refine .inr (.inr (.inr (.inl ⟨ha, ht, hn, ?_⟩)))
        simp only [acdTmrEntry_announce rand ha, if_pos ht, if_neg hn]; split_ifs <;> simp
    · exact .inl (by rw [acdTmrEntry_announce rand ha, if_neg ht])
  cases hs : acd.state <;> simp [hs] at hp ha
  · exact .inl (acdTmrEntry_quiet rand (.inl hs))
  · by_cases ht : cfg.periodicDefendOn ∧ acd.ttw ≤ 1
    · exact .inr (.inr (.inr (.inr (.inr (.inl
        ⟨rfl, ht.1, ht.2, by rw [acdTmrEntry_ongoing rand hs, if_pos ht]⟩)))))
    · exact .inl (by rw [acdTmrEntry_ongoing rand hs, if_neg ht])
  · exact .inl (acdTmrEntry_quiet rand (.inr hs))
  · by_cases ht : acd.ttw ≤ 1
    · exact .inr (.inr (.inr (.inr (.inr (.inr
        ⟨rfl, ht, by rw [acdTmrEntry_rateLimit rand hs, if_pos ht]⟩)))))
    · exact .inl (by rw [acdTmrEntry_rateLimit rand hs, if_neg ht])

@[simp] theorem acdTmrEntry_ipaddr (acd : Acd) : (acdTmrEntry cfg rand acd).1.ipaddr = acd.ipaddr := by
  rcases @acdTmrEntry_cases cfg rand acd with h | ⟨-, -, -, h⟩ | ⟨-, -, -, h⟩ | ⟨-, -, -, h⟩ |
    ⟨-, -, -, h⟩ | ⟨-, -, -, h⟩ | ⟨-, -, h⟩ <;> simp [h]

@[simp] theorem acdTmrEntry_lastconflict (acd : Acd) :
    (acdTmrEntry cfg rand acd).1.lastconflict = acd.lastconflict - 1 := by
  rcases @acdTmrEntry_cases cfg rand acd with h | ⟨-, -, -, h⟩ | ⟨-, -, -, h⟩ | ⟨-, -, -, h⟩ |
    ⟨-, -, -, h⟩ | ⟨-, -, -, h⟩ | ⟨-, -, h⟩ <;> simp [h]

end Tick

end AcdEngine
