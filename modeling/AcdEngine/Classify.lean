import AcdEngine.Stack
/-!
# What one ARP frame and one address change do

RFC 5227 names two conflicts: while probing (§2.1.1) a frame from another
host that uses the address or probes for it, and once the address is
announced (§2.4) a frame from another host that uses it. `ProbeConflict` and
`OngoingConflict` state them as the RFC and the spec do; `Conflicts` picks
one by the context's state.

- `acd_arp_reply_exact`: on every registry, `acd_arp_reply` leaves every
  context untouched and silent unless the frame conflicts with it, and then
  records the frame first and reacts as §2.1.1 and §2.4 option b ask.
- `acd_netif_ip_addr_changed_exact`: a change from a link-local to a routable
  address demotes the contexts of the old address, by state, and touches
  nothing else.
-/

namespace AcdEngine

namespace AcdState

/-- `PROBE_WAIT`, `PROBING` and `ANNOUNCE_WAIT`: the address is not ours yet. -/
def IsProbePhase (st : AcdState) : Prop :=
  st = .probeWait ∨ st = .probing ∨ st = .announceWait

/-- `ANNOUNCING`, `ONGOING` and `PASSIVE_ONGOING`: the address is in use. -/
def IsInUse (st : AcdState) : Prop :=
  st = .announcing ∨ st = .ongoing ∨ st = .passiveOngoing

instance (st : AcdState) : Decidable st.IsProbePhase := inferInstanceAs (Decidable (_ ∨ _))

instance (st : AcdState) : Decidable st.IsInUse := inferInstanceAs (Decidable (_ ∨ _))

theorem IsProbePhase.not_inUse {st : AcdState} (h : st.IsProbePhase) : ¬ st.IsInUse := by
  rcases h with rfl | rfl | rfl <;> simp [IsInUse]

end AcdState

/-- RFC 5227 §2.1.1: another host (its MAC is not ours, `m`) uses `ip`, or
probes for it from 0.0.0.0. -/
def ProbeConflict (m : EthAddr) (hdr : EtharpHdr) (ip : Ip4Addr) : Prop :=
  hdr.shwaddr ≠ m ∧ (hdr.sipaddr = ip ∨ (hdr.sipaddr.IsAny ∧ hdr.dipaddr = ip))

/-- RFC 5227 §2.4: another host uses `ip`. -/
def OngoingConflict (m : EthAddr) (hdr : EtharpHdr) (ip : Ip4Addr) : Prop :=
  hdr.shwaddr ≠ m ∧ hdr.sipaddr = ip

instance (m : EthAddr) (hdr : EtharpHdr) (ip : Ip4Addr) : Decidable (ProbeConflict m hdr ip) :=
  inferInstanceAs (Decidable (_ ∧ _))

instance (m : EthAddr) (hdr : EtharpHdr) (ip : Ip4Addr) : Decidable (OngoingConflict m hdr ip) :=
  inferInstanceAs (Decidable (_ ∧ _))

/-- The frame conflicts with context `c` in the state it is in. -/
def Conflicts (m : EthAddr) (hdr : EtharpHdr) (c : Acd) : Prop :=
  (c.state.IsProbePhase ∧ ProbeConflict m hdr c.ipaddr) ∨
    (c.state.IsInUse ∧ OngoingConflict m hdr c.ipaddr)

/-- `acd_netif_ip_addr_changed` demotes: both addresses are set, the old one
is link-local and the new one is not. -/
def Demotes (old new : Ip4Addr) : Prop :=
  ¬ old.IsAny ∧ ¬ new.IsAny ∧ old.IsLinkLocal ∧ ¬ new.IsLinkLocal

instance (old new : Ip4Addr) : Decidable (Demotes old new) :=
  inferInstanceAs (Decidable (_ ∧ _))

variable (cfg : Config)

/-- `acd_restart` as the spec tells it: one more conflict, `DECLINE`, then
`RATE_LIMIT` for `RATE_LIMIT_INTERVAL` once `MAX_CONFLICTS` is reached, and
otherwise `OFF` and `RESTART_CLIENT`. `num_conflicts` is a `u16`. -/
def Restarted (c post : Acd) (out : List Action) : Prop :=
  let k := u16 (c.numConflicts + 1)
  (cfg.maxConflicts ≤ k →
    post = { c with numConflicts := k, state := .rateLimit, ttw := cfg.rateLimitTicks } ∧
      out = [.callback .decline]) ∧
  (k < cfg.maxConflicts →
    post = { c with numConflicts := k, state := .off } ∧
      out = [.callback .decline, .callback .restartClient])

/-- The reaction to a conflicting frame, by state. -/
def Reacts (c post : Acd) (out : List Action) : Prop :=
  (c.state.IsProbePhase → Restarted cfg c post out) ∧
  (c.state = .passiveOngoing → post = { c with state := .off } ∧ out = [.callback .decline]) ∧
  (c.state = .announcing ∨ c.state = .ongoing →
    (0 < c.lastconflict → Restarted cfg c post out) ∧
    (c.lastconflict = 0 →
      post = { c with lastconflict := cfg.defendTicks } ∧ out = [.etharpAcdAnnounce c.ipaddr]))

/-- What a frame does to context `c`: nothing unless it conflicts; otherwise
the two diagnostic hooks first (`CipTcpIpSetLastAcdMac` with the sender's
hardware address, then `CipTcpIpSetLastAcdRawData` with the frame), then the
reaction. -/
def Classified (m : EthAddr) (hdr : EtharpHdr) (c post : Acd) (out : List Action) : Prop :=
  (¬ Conflicts m hdr c → post = c ∧ out = []) ∧
  (Conflicts m hdr c → ∃ rest,
    out = .cipTcpIpSetLastAcdMac hdr.shwaddr :: .cipTcpIpSetLastAcdRawData hdr :: rest ∧
      Reacts cfg c post rest)

/-- What an address change does to context `c` of the old address. -/
def Demoted (c post : Acd) (out : List Action) : Prop :=
  (c.state = .announcing ∨ c.state = .ongoing →
    post = { c with state := .passiveOngoing } ∧ out = []) ∧
  (c.state.IsProbePhase ∨ c.state = .rateLimit →
    post = { c with state := .off } ∧ out = [.callback .decline]) ∧
  (c.state = .off ∨ c.state = .passiveOngoing → post = c ∧ out = [])

/-! ## The code's conditions -/

theorem ongoing_cond_iff (m : EthAddr) (hdr : EtharpHdr) (ip : Ip4Addr) :
    (hdr.sipaddr = ip ∧ m ≠ hdr.shwaddr) ↔ OngoingConflict m hdr ip := by
  rw [OngoingConflict, ne_comm, and_comm]

theorem probe_cond_iff (m : EthAddr) (hdr : EtharpHdr) (ip : Ip4Addr) :
    (OngoingConflict m hdr ip ∨ (hdr.sipaddr.IsAny ∧ hdr.dipaddr = ip ∧ m ≠ hdr.shwaddr)) ↔
      ProbeConflict m hdr ip := by
  rw [OngoingConflict, ProbeConflict, ne_comm]; tauto

/-- `acd_arp_reply`'s loop body, with its two conditions read as the RFC's. -/
theorem acdArpReplyEntry_eq (m : EthAddr) (hdr : EtharpHdr) (c : Acd) :
    acdArpReplyEntry cfg m hdr c =
      if c.state.IsProbePhase ∧ ProbeConflict m hdr c.ipaddr then
        ((acdRestart cfg c).1, recordConflict hdr ++ (acdRestart cfg c).2)
      else if c.state.IsInUse ∧ OngoingConflict m hdr c.ipaddr then
        ((acdHandleArpConflict cfg c).1, recordConflict hdr ++ (acdHandleArpConflict cfg c).2)
      else (c, []) := by
  unfold acdArpReplyEntry
  cases hs : c.state <;> simp only [hs, AcdState.IsProbePhase, AcdState.IsInUse, reduceCtorEq,
    or_false, false_or, or_true, true_and, false_and, if_false, probe_cond_iff, ongoing_cond_iff]

theorem acdRestart_restarted (c : Acd) :
    Restarted cfg c (acdRestart cfg c).1 (acdRestart cfg c).2 := by
  simp only [Restarted, acdRestart, acdStop, ge_iff_le, u16_of_lt cfg.rateLimitTicks_lt]
  constructor
  · intro h; simp [h]
  · intro h; simp [Nat.not_le.2 h]

theorem acdHandleArpConflict_reacts (c : Acd) (h : c.state.IsInUse) :
    Reacts cfg c (acdHandleArpConflict cfg c).1 (acdHandleArpConflict cfg c).2 := by
  have hr := acdRestart_restarted cfg c
  refine ⟨fun hp => absurd h hp.not_inUse, fun hp => ?_, fun hp => ⟨fun hl => ?_, fun hl => ?_⟩⟩
  · simp [acdHandleArpConflict, hp, acdStop]
  · have : c.state ≠ .passiveOngoing := by rcases hp with hp | hp <;> simp [hp]
    simpa [acdHandleArpConflict, this, hl] using hr
  · have : c.state ≠ .passiveOngoing := by rcases hp with hp | hp <;> simp [hp]
    simp [acdHandleArpConflict, this, hl]

theorem acdArpReplyEntry_classified (m : EthAddr) (hdr : EtharpHdr) (c : Acd) :
    Classified cfg m hdr c (acdArpReplyEntry cfg m hdr c).1 (acdArpReplyEntry cfg m hdr c).2 := by
  rw [acdArpReplyEntry_eq]
  refine ⟨fun h => ?_, fun h => ?_⟩
  · simp only [Conflicts, not_or] at h
    simp [h.1, h.2]
  · rcases h with ⟨hs, hp⟩ | ⟨hs, ho⟩
    · have hn := hs.not_inUse
      refine ⟨(acdRestart cfg c).2, by simp [hs, hp, recordConflict],
        fun _ => by simpa [hs, hp] using acdRestart_restarted cfg c,
        fun h => absurd (.inr (.inr h)) hn, fun h => absurd ?_ hn⟩
      rcases h with h | h <;> simp [AcdState.IsInUse, h]
    · have hnp : ¬ c.state.IsProbePhase := fun h => h.not_inUse hs
      exact ⟨(acdHandleArpConflict cfg c).2, by simp [hnp, hs, ho, recordConflict],
        by simpa [hnp, hs, ho] using acdHandleArpConflict_reacts cfg c hs⟩

theorem acdPutInPassiveMode_demoted (c : Acd) :
    Demoted c (acdPutInPassiveMode c).1 (acdPutInPassiveMode c).2 := by
  unfold Demoted acdPutInPassiveMode AcdState.IsProbePhase
  cases hs : c.state <;> simp [hs, acdStop]

theorem acdStep_ipAddrChanged (c : Acd) (old new : Ip4Addr) :
    acdStep cfg c (.ipAddrChanged old new) =
      if Demotes old new ∧ c.ipaddr = old then acdPutInPassiveMode c else (c, []) := by
  unfold acdStep acdIpAddrChangedEntry Demotes
  by_cases h1 : old.IsAny <;> by_cases h2 : new.IsAny <;> by_cases h3 : c.ipaddr = old <;>
    simp [h1, h2, h3, and_comm]

/-! ## On the registry -/

/-- ARP classification is exact: whatever the registry and the frame,
`acd_arp_reply` leaves the contexts of other interfaces alone, and treats each
context of its interface on its own: untouched and silent unless the frame
conflicts with it, the diagnostic hooks and then the RFC 5227 reaction if it
does. -/
theorem acd_arp_reply_exact (s : Stack) (n : Nat) (hdr : EtharpHdr) (q : Nat) :
    let r := s.step cfg (.acdArpReply n hdr)
    match s.netifList[n]? with
    | some netif =>
      (q ∉ netif.acdList → r.1.acds q = s.acds q ∧ outputsOf q r.2 = []) ∧
      (q ∈ netif.acdList →
        Classified cfg netif.hwaddr hdr (s.acds q) (r.1.acds q) (outputsOf q r.2))
    | none => r.1.acds q = s.acds q ∧ outputsOf q r.2 = [] := by
  have h := s.step_at cfg (.acdArpReply n hdr) q
  simp only [inputFor] at h ⊢
  cases hn : s.netifList[n]? with
  | none => simpa [hn] using h
  | some netif =>
    simp only [hn] at h
    refine ⟨fun hq => by simpa [hq] using h, fun hq => ?_⟩
    simp only [hq, if_true, acdStep, Prod.ext_iff] at h
    rw [h.1, h.2]
    exact acdArpReplyEntry_classified cfg _ _ _

/-- Address-role demotion is exact: `acd_netif_ip_addr_changed` changes
nothing unless the change demotes a link-local address, and then it demotes
exactly the contexts of its interface on the old address, by state. -/
theorem acd_netif_ip_addr_changed_exact (s : Stack) (n : Nat) (old new : Ip4Addr) (q : Nat) :
    let r := s.step cfg (.acdNetifIpAddrChanged n old new)
    match s.netifList[n]? with
    | some netif =>
      (Demotes old new ∧ q ∈ netif.acdList ∧ (s.acds q).ipaddr = old →
        Demoted (s.acds q) (r.1.acds q) (outputsOf q r.2)) ∧
      (¬ (Demotes old new ∧ q ∈ netif.acdList ∧ (s.acds q).ipaddr = old) →
        r.1.acds q = s.acds q ∧ outputsOf q r.2 = [])
    | none => r.1.acds q = s.acds q ∧ outputsOf q r.2 = [] := by
  have h := s.step_at cfg (.acdNetifIpAddrChanged n old new) q
  simp only [inputFor] at h ⊢
  cases hn : s.netifList[n]? with
  | none => simpa [hn] using h
  | some netif =>
    simp only [hn] at h
    refine ⟨fun ⟨hd, hq, ho⟩ => ?_, fun hnot => ?_⟩
    · simp only [hq, if_true, acdStep_ipAddrChanged, hd, ho, and_self, Prod.ext_iff] at h
      rw [h.1, h.2]
      exact acdPutInPassiveMode_demoted _
    · by_cases hq : q ∈ netif.acdList
      · have hne : ¬ (Demotes old new ∧ (s.acds q).ipaddr = old) := fun h' => hnot ⟨h'.1, hq, h'.2⟩
        simp only [hq, if_true, acdStep_ipAddrChanged, if_neg hne, Prod.ext_iff] at h
        exact h
      · simpa [hq] using h

end AcdEngine
