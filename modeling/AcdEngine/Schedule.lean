import AcdEngine.ConflictCounter
/-!
# The probe and announce schedule

From `acd_start` to `IP_OK` a context runs a chain of countdowns. It waits
`max w 1` ticks and probes; `max r 1` ticks after each of the first `P - 1`
probes it probes again, `r` being drawn on that probe's tick; it waits
`max AW 1` ticks and announces, and announces `A - 1` more times, `AI` ticks
apart; the last announce delivers `IP_OK`. `probeTime` and `announceTime` are
those ticks, counted from `acd_start`.

Only ticks move the countdown. Every other call either leaves the context's
state, `sent_num` and `ttw` alone, or takes it off the schedule for the rest
of the epoch, to `OFF`, `RATE_LIMIT` or `PASSIVE_ONGOING` (`Dead`).

- `acdTmrEntry_onSchedule`: one tick of the schedule, with what it sends.
- `acdStep_other`: any other call keeps the schedule or kills it.
-/

namespace AcdEngine

variable (cfg : Config)

/-- `P`: the probes sent, at least one. -/
def probeCount : Nat := max cfg.probeNum 1

/-- `A`: the announces sent, at least one. -/
def announceCount : Nat := max cfg.announceNum 1

section Times

variable (w : Nat) (rd : Nat → Nat)

/-- The tick, counted from `acd_start`, on which probe `k` is sent, for
`k ≥ 1`: `w` is the initial wait and `rd n` what `LWIP_ACD_RAND` returns on
tick `n`. -/
def probeTime : Nat → Nat
  | 0 => 0
  | 1 => max w 1
  | k + 2 =>
    probeTime (k + 1) + max (u16 (cfg.acdRandomProbeInterval (rd (probeTime (k + 1))))) 1

/-- The wait after probe `k`: the initial draw for `k = 0`, then the interval
drawn on probe `k`'s tick. -/
def probeGap (k : Nat) : Nat :=
  if k = 0 then w else u16 (cfg.acdRandomProbeInterval (rd (probeTime cfg w rd k)))

/-- The tick on which announce `j + 1` is sent. -/
def announceTime (j : Nat) : Nat :=
  probeTime cfg w rd (probeCount cfg) + max cfg.acdAnnounceWaitTicksValue 1 +
    j * cfg.acdAnnounceIntervalTicksValue

/-- `T`, the tick of `IP_OK`: the last announce. -/
def ipOkTime : Nat := announceTime cfg w rd (announceCount cfg - 1)

/-- What tick `n` sends, up to `IP_OK`. -/
def schedOut (ip : Ip4Addr) (n : Nat) : List Action :=
  if n = ipOkTime cfg w rd then [.etharpAcdAnnounce ip, .callback .ipOk]
  else if n ∈ (List.range (announceCount cfg)).map (announceTime cfg w rd) then
    [.etharpAcdAnnounce ip]
  else if n ∈ (List.range (probeCount cfg)).map (fun k => probeTime cfg w rd (k + 1)) then
    [.etharpAcdProbe ip]
  else []

theorem probeTime_succ (k : Nat) :
    probeTime cfg w rd (k + 1) = probeTime cfg w rd k + max (probeGap cfg w rd k) 1 := by
  cases k with
  | zero => exact (Nat.zero_add _).symm
  | succ k => rfl

theorem probeTime_strictMono : StrictMono (probeTime cfg w rd) :=
  strictMono_nat_of_lt_succ fun k => by rw [probeTime_succ]; omega

/-- The tick of probe `k + 1` in closed form: the initial wait, then each
drawn gap, every one at least a tick: `max w 1 + Σ_{i=1}^{k} max r_i 1`. -/
theorem probeTime_eq_sum (k : Nat) :
    probeTime cfg w rd (k + 1) =
      max w 1 + ((List.range k).map fun i => max (probeGap cfg w rd (i + 1)) 1).sum := by
  induction k with
  | zero => simp [probeTime]
  | succ k ih => rw [probeTime_succ, ih, List.sum_range_succ, Nat.add_assoc]

theorem announceTime_succ (j : Nat) :
    announceTime cfg w rd (j + 1) = announceTime cfg w rd j + cfg.acdAnnounceIntervalTicksValue := by
  simp [announceTime, Nat.succ_mul, Nat.add_assoc]

theorem announceTime_strictMono : StrictMono (announceTime cfg w rd) :=
  strictMono_nat_of_lt_succ fun j => by
    have := cfg.acdAnnounceIntervalTicksValue_pos; rw [announceTime_succ]; omega

theorem probeTime_lt_announceTime (j : Nat) :
    probeTime cfg w rd (probeCount cfg) < announceTime cfg w rd j := by
  simp only [announceTime]; omega

theorem announceTime_zero :
    announceTime cfg w rd 0 =
      probeTime cfg w rd (probeCount cfg) + max cfg.acdAnnounceWaitTicksValue 1 := by
  simp [announceTime]

theorem announceTime_le_ipOkTime {j : Nat} (hj : j < announceCount cfg) :
    announceTime cfg w rd j ≤ ipOkTime cfg w rd :=
  (announceTime_strictMono cfg w rd).monotone (by omega)

theorem ipOkTime_pos : 0 < ipOkTime cfg w rd :=
  Nat.lt_of_le_of_lt (Nat.zero_le _) (probeTime_lt_announceTime cfg w rd _)

/-- The tick of `IP_OK` in closed form: the probe ticks, the announce wait
(at least a tick), and `ANNOUNCE_NUM - 1` announce intervals. -/
theorem ipOkTime_eq :
    ipOkTime cfg w rd =
      max w 1 + ((List.range (probeCount cfg - 1)).map fun i => max (probeGap cfg w rd (i + 1)) 1).sum +
        max cfg.acdAnnounceWaitTicksValue 1 +
        (announceCount cfg - 1) * cfg.acdAnnounceIntervalTicksValue := by
  have hP : 1 ≤ probeCount cfg := le_max_right _ _
  rw [ipOkTime, announceTime, ← probeTime_eq_sum, Nat.sub_add_cancel hP]

/-- The initial wait `acd_start` draws is below the probe wait, and 0 without one. -/
theorem acdRandomProbeWait_lt (rand : Nat) :
    u16 (cfg.acdRandomProbeWait rand) < max cfg.probeWaitTicks 1 ∧
      (cfg.probeWaitMs = 0 → u16 (cfg.acdRandomProbeWait rand) = 0) := by
  have hPW := cfg.msToTicks_lt cfg.probeWaitMs
  unfold Config.acdRandomProbeWait
  split_ifs with h0 h1
  · simp [u16]
  · have := Nat.mod_lt rand h1
    rw [u16_of_lt (by simp only [Config.probeWaitTicks] at *; omega)]
    exact ⟨by omega, fun h => absurd h h0⟩
  · rw [Nat.mod_one]; simp [u16, h0]

/-- A probe interval drawn is between `MIN` and `max MIN (MAX - 1)`. -/
theorem acdRandomProbeInterval_mem (rand : Nat) :
    cfg.probeMinTicks ≤ u16 (cfg.acdRandomProbeInterval rand) ∧
      u16 (cfg.acdRandomProbeInterval rand) ≤ max cfg.probeMinTicks (cfg.probeMaxTicks - 1) := by
  have hmax := cfg.msToTicks_lt cfg.probeMaxMs
  have hmin := cfg.msToTicks_lt cfg.probeMinMs
  unfold Config.acdRandomProbeInterval
  split_ifs with h
  · have := Nat.mod_lt rand (Nat.sub_pos_of_lt h)
    rw [u16_of_lt (by simp only [Config.probeMaxTicks] at *; omega)]
    omega
  · rw [u16_of_lt (by simpa only [Config.probeMinTicks] using hmin)]
    omega

/-- Each drawn probe interval is between `MIN` and `max MIN (MAX - 1)`. -/
theorem probeGap_mem {k : Nat} (hk : 0 < k) :
    cfg.probeMinTicks ≤ probeGap cfg w rd k ∧
      probeGap cfg w rd k ≤ max cfg.probeMinTicks (cfg.probeMaxTicks - 1) := by
  simp only [probeGap, Nat.pos_iff_ne_zero.1 hk, if_false]
  exact acdRandomProbeInterval_mem cfg _

/-! ## What each tick sends -/

variable (ip : Ip4Addr)

theorem schedOut_quiet {n : Nat} (hp : ∀ k < probeCount cfg, probeTime cfg w rd (k + 1) ≠ n)
    (ha : ∀ j < announceCount cfg, announceTime cfg w rd j ≠ n) : schedOut cfg w rd ip n = [] := by
  have hA : announceCount cfg - 1 < announceCount cfg := by
    have : 1 ≤ announceCount cfg := le_max_right _ _
    omega
  simp only [schedOut, ipOkTime, if_neg (ha _ hA).symm, List.mem_map, List.mem_range]
  rw [if_neg (fun ⟨j, hj, h⟩ => ha j hj h), if_neg (fun ⟨k, hk, h⟩ => hp k hk h)]

theorem schedOut_probeTime {k : Nat} (hk : k < probeCount cfg) :
    schedOut cfg w rd ip (probeTime cfg w rd (k + 1)) = [.etharpAcdProbe ip] := by
  have hlt : ∀ j, probeTime cfg w rd (k + 1) ≠ announceTime cfg w rd j := fun j =>
    Nat.ne_of_lt (Nat.lt_of_le_of_lt ((probeTime_strictMono cfg w rd).monotone hk)
      (probeTime_lt_announceTime cfg w rd j))
  simp only [schedOut, ipOkTime, if_neg (hlt _), List.mem_map, List.mem_range]
  rw [if_neg (fun ⟨j, _, h⟩ => hlt j h.symm), if_pos ⟨k, hk, rfl⟩]

theorem schedOut_announceTime {j : Nat} (hj : j < announceCount cfg) :
    schedOut cfg w rd ip (announceTime cfg w rd j) =
      if j + 1 = announceCount cfg then [.etharpAcdAnnounce ip, .callback .ipOk]
      else [.etharpAcdAnnounce ip] := by
  simp only [schedOut, ipOkTime, (announceTime_strictMono cfg w rd).injective.eq_iff]
  by_cases hl : j + 1 = announceCount cfg
  · rw [if_pos (by omega), if_pos hl]
  · rw [if_neg (by omega), if_neg hl, if_pos (List.mem_map.2 ⟨j, List.mem_range.2 hj, rfl⟩)]

theorem schedOut_ipOkTime :
    schedOut cfg w rd ip (ipOkTime cfg w rd) = [.etharpAcdAnnounce ip, .callback .ipOk] :=
  if_pos rfl

theorem callbacksOf_schedOut (n : Nat) :
    callbacksOf (schedOut cfg w rd ip n) = if n = ipOkTime cfg w rd then [.ipOk] else [] := by
  unfold schedOut; split_ifs <;> rfl

/-! ## Where a context stands on the schedule -/

/-- Where a context of address `ip` stands `m` ticks into its epoch: its state, `sent_num` and
`ttw` follow the schedule, `tsent` is what its ticks sent, and `sent` is everything it sent. -/
inductive OnSchedule (m : Nat) (a : Acd) (tsent sent : List Action) : Prop
  /-- Waiting for probe `k + 1`. -/
  | probe (k : Nat) (hk : k < probeCount cfg) (hs : a.state = .probeWait ∨ a.state = .probing)
      (hn : a.sentNum = k) (h1 : probeTime cfg w rd k ≤ m) (h2 : m < probeTime cfg w rd (k + 1))
      (ht : a.ttw = probeGap cfg w rd k - (m - probeTime cfg w rd k))
      (htsent : tsent = List.replicate k (.etharpAcdProbe ip)) (hsent : sent = tsent)
  /-- Every probe sent, waiting for the first announce. -/
  | announceWait (hs : a.state = .announceWait) (hn : a.sentNum = 0)
      (h1 : probeTime cfg w rd (probeCount cfg) ≤ m) (h2 : m < announceTime cfg w rd 0)
      (ht : a.ttw = cfg.acdAnnounceWaitTicksValue - (m - probeTime cfg w rd (probeCount cfg)))
      (htsent : tsent = List.replicate (probeCount cfg) (.etharpAcdProbe ip)) (hsent : sent = tsent)
  /-- Waiting for announce `j + 2`; `d` conflicting frames were defended. -/
  | announcing (j d : Nat) (hj : j + 1 < announceCount cfg) (hs : a.state = .announcing)
      (hn : a.sentNum = j + 1) (h1 : announceTime cfg w rd j ≤ m)
      (h2 : m < announceTime cfg w rd (j + 1))
      (ht : a.ttw = cfg.acdAnnounceIntervalTicksValue - (m - announceTime cfg w rd j))
      (htsent : tsent = List.replicate (probeCount cfg) (.etharpAcdProbe ip) ++
        List.replicate (j + 1) (.etharpAcdAnnounce ip))
      (hsent : sent = tsent ++ List.replicate d (.etharpAcdAnnounce ip))
  /-- `IP_OK` delivered. -/
  | ongoing (hs : a.state = .ongoing) (h1 : ipOkTime cfg w rd ≤ m)
      (htsent : List.replicate (probeCount cfg) (.etharpAcdProbe ip) ++
        List.replicate (announceCount cfg) (.etharpAcdAnnounce ip) <+: tsent)

end Times

section OnSchedule

variable {cfg} {w : Nat} {rd : Nat → Nat} {ip : Ip4Addr} {m : Nat} {a : Acd}
  {tsent sent : List Action}

/-- The epoch's first state: `acd_start` drew the wait `w`. -/
theorem onSchedule_acdStart (rand : Nat) (b : Acd) :
    OnSchedule cfg (acdStart cfg rand ip b).ttw rd ip 0 (acdStart cfg rand ip b) [] [] :=
  .probe 0 (le_max_right _ _) (.inl rfl) rfl le_rfl (by simp [probeTime])
    (by simp [probeGap, probeTime]) rfl rfl

theorem OnSchedule.with_lastconflict (h : OnSchedule cfg w rd ip m a tsent sent) (lc : Nat) :
    OnSchedule cfg w rd ip m { a with lastconflict := lc } tsent sent := by
  cases h with
  | probe k hk hs hn h1 h2 ht htsent hsent => exact .probe k hk hs hn h1 h2 ht htsent hsent
  | announceWait hs hn h1 h2 ht htsent hsent => exact .announceWait hs hn h1 h2 ht htsent hsent
  | announcing j d hj hs hn h1 h2 ht htsent hsent =>
    exact .announcing j d hj hs hn h1 h2 ht htsent hsent
  | ongoing hs h1 htsent => exact .ongoing hs h1 htsent

/-- A defended frame adds one announce once the address is in use. -/
theorem OnSchedule.defend (h : OnSchedule cfg w rd ip m a tsent sent) (hs : a.state.IsInUse)
    (hip : a.ipaddr = ip) : OnSchedule cfg w rd ip m a tsent (sent ++ [.etharpAcdAnnounce a.ipaddr]) := by
  rw [hip]
  cases h with
  | probe k hk hs' => rcases hs' with hs' | hs' <;> simp [hs', AcdState.IsInUse] at hs
  | announceWait hs' => simp [hs', AcdState.IsInUse] at hs
  | announcing j d hj hs hn h1 h2 ht htsent hsent =>
    exact .announcing j (d + 1) hj hs hn h1 h2 ht htsent (by simp [hsent, List.replicate_succ'])
  | ongoing hs h1 htsent => exact .ongoing hs h1 htsent

theorem OnSchedule.ongoing_iff (h : OnSchedule cfg w rd ip m a tsent sent) :
    a.state = .ongoing ↔ ipOkTime cfg w rd ≤ m := by
  have hP : ∀ k < probeCount cfg, probeTime cfg w rd (k + 1) < ipOkTime cfg w rd := fun k hk =>
    Nat.lt_of_le_of_lt ((probeTime_strictMono cfg w rd).monotone hk)
      (Nat.lt_of_lt_of_le (probeTime_lt_announceTime cfg w rd 0)
        ((announceTime_strictMono cfg w rd).monotone (Nat.zero_le _)))
  cases h with
  | probe k hk hs _ _ h2 =>
    have := hP k hk; rcases hs with hs | hs <;> simp only [hs, reduceCtorEq, false_iff] <;> omega
  | announceWait hs _ _ h2 =>
    have := announceTime_le_ipOkTime cfg w rd (Nat.lt_of_lt_of_le Nat.zero_lt_one (le_max_right _ _))
    simp only [hs, reduceCtorEq, false_iff]; omega
  | announcing j d hj hs _ _ h2 =>
    have := announceTime_le_ipOkTime cfg w rd (show j + 1 < announceCount cfg from hj)
    simp only [hs, reduceCtorEq, false_iff]; omega
  | ongoing hs h1 => simp [hs, h1]

/-- What the ticks sent so far says about the tick count: fewer than `P` probes before
`probeTime P`, an announce from `announceTime 0` on. -/
theorem OnSchedule.bounds (h : OnSchedule cfg w rd ip m a tsent sent) :
    (tsent.length < probeCount cfg → m < probeTime cfg w rd (probeCount cfg)) ∧
      (probeCount cfg ≤ tsent.length → probeTime cfg w rd (probeCount cfg) ≤ m) ∧
      (tsent.length ≤ probeCount cfg → m < announceTime cfg w rd 0) ∧
      (probeCount cfg < tsent.length → announceTime cfg w rd 0 ≤ m) := by
  have hPA := probeTime_lt_announceTime cfg w rd 0
  have hA : 1 ≤ announceCount cfg := le_max_right _ _
  cases h with
  | probe k hk _ _ _ h2 _ htsent =>
    have hk' := (probeTime_strictMono cfg w rd).monotone (show k + 1 ≤ probeCount cfg from hk)
    simp only [htsent, List.length_replicate]; omega
  | announceWait _ _ h1 h2 _ htsent => simp only [htsent, List.length_replicate]; omega
  | announcing j d hj _ _ h1 _ _ htsent =>
    have hj' := (announceTime_strictMono cfg w rd).monotone (Nat.zero_le j)
    simp only [htsent, List.length_append, List.length_replicate]; omega
  | ongoing _ h1 htsent =>
    have hl := htsent.length_le
    have hT := announceTime_le_ipOkTime cfg w rd (show 0 < announceCount cfg by omega)
    simp only [List.length_append, List.length_replicate] at hl; omega

/-- On the eve of `IP_OK` every probe and all announces but the last are out. -/
theorem OnSchedule.eve (h : OnSchedule cfg w rd ip m a tsent sent)
    (hm : m + 1 = ipOkTime cfg w rd) :
    tsent = List.replicate (probeCount cfg) (.etharpAcdProbe ip) ++
        List.replicate (announceCount cfg - 1) (.etharpAcdAnnounce ip) ∧
      ∃ d, sent = tsent ++ List.replicate d (.etharpAcdAnnounce ip) := by
  have hA : 1 ≤ announceCount cfg := le_max_right _ _
  cases h with
  | probe k hk _ _ _ h2 _ htsent hsent =>
    have hk' := (probeTime_strictMono cfg w rd).monotone (show k + 1 ≤ probeCount cfg from hk)
    have := probeTime_lt_announceTime cfg w rd (announceCount cfg - 1)
    rw [ipOkTime] at hm; omega
  | announceWait _ _ _ h2 _ htsent hsent =>
    have : announceCount cfg - 1 ≤ 0 := (announceTime_strictMono cfg w rd).le_iff_le.1 (by rw [← ipOkTime, ← hm]; omega)
    exact ⟨by rw [htsent, show announceCount cfg - 1 = 0 by omega]; simp, 0, by simp [hsent]⟩
  | announcing j d hj _ _ _ h2 _ htsent hsent =>
    have : announceCount cfg - 1 ≤ j + 1 := (announceTime_strictMono cfg w rd).le_iff_le.1 (by rw [← ipOkTime, ← hm]; omega)
    exact ⟨by rw [htsent, show announceCount cfg - 1 = j + 1 by omega], d, hsent⟩
  | ongoing _ h1 => omega

/-! ## One tick -/

/-- A countdown of `g` ticks started on tick `p`, seen on tick `m` before it ran out: the
next tick finds it at 1 or below exactly on tick `p + max g 1`, and otherwise takes one off. -/
theorem countdown_next {g p m : Nat} (h1 : p ≤ m) (h2 : m < p + max g 1) :
    (g - (m - p) ≤ 1 ↔ m + 1 = p + max g 1) ∧
      (¬ g - (m - p) ≤ 1 → g - (m - p) - 1 = g - (m + 1 - p) ∧ p < m + 1 ∧ m + 1 < p + max g 1) := by
  omega

/-- A tick while waiting for probe `k + 1`: the probe goes out on `probeTime (k + 1)`, then
the wait for the next one is drawn, or the announce wait begins after the last. -/
theorem tick_probe (hP : cfg.probeNum < 2 ^ 16) {k : Nat} (hk : k < probeCount cfg)
    (hs : a.state = .probeWait ∨ a.state = .probing) (hn : a.sentNum = k)
    (h1 : probeTime cfg w rd k ≤ m) (h2 : m < probeTime cfg w rd (k + 1))
    (ht : a.ttw = probeGap cfg w rd k - (m - probeTime cfg w rd k)) (hip : a.ipaddr = ip) :
    (acdTmrEntry cfg (rd (m + 1)) a).2 = schedOut cfg w rd ip (m + 1) ∧
      OnSchedule cfg w rd ip (m + 1) (acdTmrEntry cfg (rd (m + 1)) a).1
        (List.replicate k (.etharpAcdProbe ip) ++ (acdTmrEntry cfg (rd (m + 1)) a).2.filter Action.isSend)
        (List.replicate k (.etharpAcdProbe ip) ++ (acdTmrEntry cfg (rd (m + 1)) a).2.filter Action.isSend) := by
  have hsucc := probeTime_succ cfg w rd k
  obtain ⟨hiff, hdown⟩ := countdown_next h1 (hsucc ▸ h2)
  rw [← hsucc, ← ht] at hiff hdown
  have hkP : k < max cfg.probeNum 1 := hk
  rw [acdTmrEntry_probe _ hs, hn, u16_of_lt (by omega)]
  by_cases hfire : a.ttw ≤ 1
  · have hm := hiff.1 hfire
    simp only [if_pos hfire, hip]
    by_cases hlast : cfg.probeNum ≤ k + 1
    · have hkP' : k + 1 = probeCount cfg := by simp only [probeCount]; omega
      simp only [if_pos hlast]
      refine ⟨by rw [hm, schedOut_probeTime cfg w rd ip hk], .announceWait rfl rfl
        (by rw [hm, hkP']) ?_ (by dsimp only; rw [hm, hkP', Nat.sub_self, Nat.sub_zero])
        (by simp [← hkP', List.replicate_succ']) rfl⟩
      rw [announceTime_zero, ← hkP', ← hm]; exact Nat.lt_add_of_pos_right (le_max_right _ _)
    · have hk' : k + 1 < probeCount cfg := by simp only [probeCount]; omega
      simp only [if_neg hlast]
      refine ⟨by rw [hm, schedOut_probeTime cfg w rd ip hk], .probe (k + 1) hk' (.inr rfl) rfl
        hm.ge ?_ ?_ (by simp [List.replicate_succ']) rfl⟩
      · rw [hm]; exact probeTime_strictMono cfg w rd (Nat.lt_succ_self _)
      · simp [probeGap, hm]
  · obtain ⟨httw, hlo, hhi⟩ := hdown hfire
    have hmono := (probeTime_strictMono cfg w rd).monotone
    simp only [if_neg hfire]
    refine ⟨(schedOut_quiet cfg w rd ip (fun i _ => hmono.ne_of_lt_of_lt_nat k hlo hhi (i + 1))
        fun j _ => Nat.ne_of_gt (hhi.trans_le ((hmono hk).trans (probeTime_lt_announceTime cfg w rd j).le))).symm,
      .probe k hk (by simpa using hs) (by simpa using hn) hlo.le hhi
        (by rw [tmrCountdown_ttw, httw]) (by simp) rfl⟩

/-- A tick while waiting for the first announce: it goes out on `announceTime 0`, with `IP_OK`
if it is the only one. -/
theorem tick_announceWait (hA : cfg.announceNum < 2 ^ 16) (hs : a.state = .announceWait)
    (hn : a.sentNum = 0) (h1 : probeTime cfg w rd (probeCount cfg) ≤ m)
    (h2 : m < announceTime cfg w rd 0)
    (ht : a.ttw = cfg.acdAnnounceWaitTicksValue - (m - probeTime cfg w rd (probeCount cfg)))
    (hip : a.ipaddr = ip) :
    (acdTmrEntry cfg (rd (m + 1)) a).2 = schedOut cfg w rd ip (m + 1) ∧
      OnSchedule cfg w rd ip (m + 1) (acdTmrEntry cfg (rd (m + 1)) a).1
        (List.replicate (probeCount cfg) (.etharpAcdProbe ip) ++
          (acdTmrEntry cfg (rd (m + 1)) a).2.filter Action.isSend)
        (List.replicate (probeCount cfg) (.etharpAcdProbe ip) ++
          (acdTmrEntry cfg (rd (m + 1)) a).2.filter Action.isSend) := by
  have h0 := announceTime_zero cfg w rd
  obtain ⟨hiff, hdown⟩ := countdown_next h1 (h0 ▸ h2)
  rw [← h0, ← ht] at hiff hdown
  have hA1 : 1 ≤ announceCount cfg := le_max_right _ _
  rw [acdTmrEntry_announce _ (.inl hs), hn]
  by_cases hfire : a.ttw ≤ 1
  · have hm := hiff.1 hfire
    simp only [if_pos hfire, if_true, hip, Nat.zero_add, u16_of_lt (show 1 < 2 ^ 16 by decide)]
    by_cases hlast : cfg.announceNum ≤ 1
    · have hA1 : announceCount cfg = 1 := by simp only [announceCount]; omega
      have hT : ipOkTime cfg w rd = m + 1 := by rw [ipOkTime, hA1, hm]
      simp only [if_pos hlast]
      exact ⟨by rw [hm, schedOut_announceTime cfg w rd ip (by omega), if_pos (by omega)],
        .ongoing rfl hT.le (by simp [hA1])⟩
    · have hA1 : 0 + 1 < announceCount cfg := by simp only [announceCount]; omega
      simp only [if_neg hlast]
      refine ⟨by rw [hm, schedOut_announceTime cfg w rd ip (by omega), if_neg (by omega)],
        .announcing 0 0 hA1 rfl rfl hm.ge ?_ (by dsimp only; rw [hm, Nat.sub_self, Nat.sub_zero])
          (by simp) (by simp)⟩
      rw [hm]; exact announceTime_strictMono cfg w rd Nat.zero_lt_one
  · obtain ⟨httw, hlo, hhi⟩ := hdown hfire
    simp only [if_neg hfire]
    refine ⟨(schedOut_quiet cfg w rd ip (fun k hk => Nat.ne_of_lt (Nat.lt_of_le_of_lt
        ((probeTime_strictMono cfg w rd).monotone hk) hlo))
        fun j _ => Nat.ne_of_gt (hhi.trans_le ((announceTime_strictMono cfg w rd).monotone
          (Nat.zero_le j)))).symm,
      .announceWait (by simpa using hs) (by simpa using hn) hlo.le hhi
        (by rw [tmrCountdown_ttw, httw]) (by simp) rfl⟩

/-- A tick while waiting for announce `j + 2`: it goes out on `announceTime (j + 1)`, with
`IP_OK` if it is the last. -/
theorem tick_announcing (hA : cfg.announceNum < 2 ^ 16) {j : Nat} (hj : j + 1 < announceCount cfg)
    (hs : a.state = .announcing) (hn : a.sentNum = j + 1) (h1 : announceTime cfg w rd j ≤ m)
    (h2 : m < announceTime cfg w rd (j + 1))
    (ht : a.ttw = cfg.acdAnnounceIntervalTicksValue - (m - announceTime cfg w rd j))
    (hip : a.ipaddr = ip) (d : Nat) :
    (acdTmrEntry cfg (rd (m + 1)) a).2 = schedOut cfg w rd ip (m + 1) ∧
      OnSchedule cfg w rd ip (m + 1) (acdTmrEntry cfg (rd (m + 1)) a).1
        (List.replicate (probeCount cfg) (.etharpAcdProbe ip) ++
          List.replicate (j + 1) (.etharpAcdAnnounce ip) ++
          (acdTmrEntry cfg (rd (m + 1)) a).2.filter Action.isSend)
        (List.replicate (probeCount cfg) (.etharpAcdProbe ip) ++
          List.replicate (j + 1) (.etharpAcdAnnounce ip) ++
          List.replicate d (.etharpAcdAnnounce ip) ++
          (acdTmrEntry cfg (rd (m + 1)) a).2.filter Action.isSend) := by
  have hsucc : announceTime cfg w rd (j + 1) =
      announceTime cfg w rd j + max cfg.acdAnnounceIntervalTicksValue 1 := by
    rw [announceTime_succ, Nat.max_eq_left cfg.acdAnnounceIntervalTicksValue_pos]
  obtain ⟨hiff, hdown⟩ := countdown_next h1 (hsucc ▸ h2)
  rw [← hsucc, ← ht] at hiff hdown
  have hjA : j + 1 < max cfg.announceNum 1 := hj
  rw [acdTmrEntry_announce _ (.inr hs), hn, u16_of_lt (by omega)]
  by_cases hfire : a.ttw ≤ 1
  · have hm := hiff.1 hfire
    simp only [if_pos hfire, Nat.add_one_ne_zero, if_false, hip]
    by_cases hlast : cfg.announceNum ≤ j + 1 + 1
    · have hA1 : announceCount cfg = j + 2 := by simp only [announceCount]; omega
      have hT : ipOkTime cfg w rd = m + 1 := by rw [ipOkTime, hA1, hm]; rfl
      simp only [if_pos hlast]
      exact ⟨by rw [hm, schedOut_announceTime cfg w rd ip hj, if_pos hA1.symm],
        .ongoing rfl hT.le (by simp [hA1, List.replicate_succ'])⟩
    · have hj' : j + 1 + 1 < announceCount cfg := by simp only [announceCount]; omega
      simp only [if_neg hlast]
      refine ⟨by rw [hm, schedOut_announceTime cfg w rd ip hj, if_neg (by omega)],
        .announcing (j + 1) d hj' (by simpa using hs) rfl hm.ge ?_
          (by dsimp only; rw [hm, Nat.sub_self, Nat.sub_zero])
          (by simp [List.replicate_succ']) ?_⟩
      · rw [hm]; exact announceTime_strictMono cfg w rd (Nat.lt_succ_self _)
      · simp only [List.filter, Action.isSend, List.append_assoc, List.append_cancel_left_eq]
        rw [← List.replicate_succ', List.replicate_succ]
        rfl
  · obtain ⟨httw, hlo, hhi⟩ := hdown hfire
    simp only [if_neg hfire]
    refine ⟨(schedOut_quiet cfg w rd ip (fun k hk => Nat.ne_of_lt (Nat.lt_of_le_of_lt
        ((probeTime_strictMono cfg w rd).monotone hk)
        ((probeTime_lt_announceTime cfg w rd j).trans_le (Nat.le_of_lt hlo))))
        fun i _ => (announceTime_strictMono cfg w rd).monotone.ne_of_lt_of_lt_nat j hlo hhi i).symm,
      .announcing j d hj (by simpa using hs) (by simpa using hn) hlo.le hhi
        (by rw [tmrCountdown_ttw, httw]) (by simp) (by simp)⟩

theorem tick_ongoing (rand : Nat) (hs : a.state = .ongoing) :
    (acdTmrEntry cfg rand a).1.state = .ongoing ∧ callbacksOf (acdTmrEntry cfg rand a).2 = [] := by
  rw [acdTmrEntry_ongoing _ hs]; split_ifs <;> simp [hs, callbacksOf]

/-- One tick on the schedule: the context stays on it, a tick up to `T` sends what the schedule
says, and `IP_OK` comes on tick `T` and on no other. -/
theorem acdTmrEntry_onSchedule (hP : cfg.probeNum < 2 ^ 16) (hA : cfg.announceNum < 2 ^ 16)
    (h : OnSchedule cfg w rd ip m a tsent sent) (hip : a.ipaddr = ip) :
    OnSchedule cfg w rd ip (m + 1) (acdTmrEntry cfg (rd (m + 1)) a).1
        (tsent ++ (acdTmrEntry cfg (rd (m + 1)) a).2.filter Action.isSend)
        (sent ++ (acdTmrEntry cfg (rd (m + 1)) a).2.filter Action.isSend) ∧
      (m + 1 ≤ ipOkTime cfg w rd →
        (acdTmrEntry cfg (rd (m + 1)) a).2 = schedOut cfg w rd ip (m + 1)) ∧
      callbacksOf (acdTmrEntry cfg (rd (m + 1)) a).2 =
        if m + 1 = ipOkTime cfg w rd then [.ipOk] else [] := by
  cases h with
  | probe k hk hs hn h1 h2 ht htsent hsent =>
    subst hsent htsent
    obtain ⟨hout, hon⟩ := tick_probe hP hk hs hn h1 h2 ht hip
    exact ⟨hon, fun _ => hout, by rw [hout, callbacksOf_schedOut]⟩
  | announceWait hs hn h1 h2 ht htsent hsent =>
    subst hsent htsent
    obtain ⟨hout, hon⟩ := tick_announceWait hA hs hn h1 h2 ht hip
    exact ⟨hon, fun _ => hout, by rw [hout, callbacksOf_schedOut]⟩
  | announcing j d hj hs hn h1 h2 ht htsent hsent =>
    subst hsent htsent
    obtain ⟨hout, hon⟩ := tick_announcing hA hj hs hn h1 h2 ht hip d
    exact ⟨hon, fun _ => hout, by rw [hout, callbacksOf_schedOut]⟩
  | ongoing hs h1 htsent =>
    obtain ⟨hs', hcb⟩ := tick_ongoing (rd (m + 1)) hs
    exact ⟨.ongoing hs' (by omega) (htsent.trans (List.prefix_append _ _)),
      fun h => absurd h (by omega), by rw [hcb, if_neg (by omega)]⟩

end OnSchedule

/-! ## Off the schedule -/

/-- `OFF`, `RATE_LIMIT` and `PASSIVE_ONGOING`: off the schedule until the next `acd_start`. -/
def Dead (a : Acd) : Prop := a.state = .off ∨ a.state = .rateLimit ∨ a.state = .passiveOngoing

instance (a : Acd) : Decidable (Dead a) := inferInstanceAs (Decidable (_ ∨ _))

theorem OnSchedule.not_dead {w : Nat} {rd : Nat → Nat} {ip : Ip4Addr} {m : Nat} {a : Acd}
    {tsent sent : List Action} (h : OnSchedule cfg w rd ip m a tsent sent) : ¬ Dead a := by
  cases h with
  | probe _ _ hs => rcases hs with hs | hs <;> simp [Dead, hs]
  | announceWait hs | announcing _ _ _ hs | ongoing hs => simp [Dead, hs]

theorem acdRestart_dead (a : Acd) :
    Dead (acdRestart cfg a).1 ∧ .ipOk ∉ callbacksOf (acdRestart cfg a).2 := by
  unfold acdRestart; dsimp only
  split_ifs <;> simp [Dead, acdStop, callbacksOf]

theorem acdPutInPassiveMode_dead (a : Acd) :
    Dead (acdPutInPassiveMode a).1 ∧ .ipOk ∉ callbacksOf (acdPutInPassiveMode a).2 := by
  unfold acdPutInPassiveMode
  cases hs : a.state <;> simp [Dead, hs, acdStop, callbacksOf]

/-- A call other than a tick or `acd_start` never delivers `IP_OK`. It takes the context off
the schedule, or leaves all but `lastconflict` alone: it then delivers nothing, sends at most
one defending announce once the address is in use, and was no probe conflict. -/
theorem acdStep_other (a : Acd) {i : Input} (ht : i.isTmr = false) (hs : i.isStart = false) :
    .ipOk ∉ callbacksOf (acdStep cfg a i).2 ∧
      (Dead (acdStep cfg a i).1 ∨
        ((acdStep cfg a i).1 = { a with lastconflict := (acdStep cfg a i).1.lastconflict } ∧
          callbacksOf (acdStep cfg a i).2 = [] ∧
          ((acdStep cfg a i).2.filter Action.isSend = [] ∨
            (a.state.IsInUse ∧
              (acdStep cfg a i).2.filter Action.isSend = [.etharpAcdAnnounce a.ipaddr])) ∧
          ∀ m hdr, i = .acdArpReply m hdr → a.state.IsProbePhase → ¬ ProbeConflict m hdr a.ipaddr)) := by
  have hrec (hdr : EtharpHdr) (out : List Action) :
      callbacksOf (recordConflict hdr ++ out) = callbacksOf out := by
    simp [callbacksOf, recordConflict]
  cases i with
  | acdStart | acdTmr => simp [Input.isStart, Input.isTmr] at hs ht
  | acdStop => exact ⟨by simp [acdStep, callbacksOf], .inl (.inl rfl)⟩
  | acdArpReply m hdr =>
    simp only [acdStep, acdArpReplyEntry_eq]
    split_ifs with hp hu
    · exact ⟨by simpa [hrec] using (acdRestart_dead cfg a).2, .inl (acdRestart_dead cfg a).1⟩
    · unfold acdHandleArpConflict
      split_ifs
      · exact ⟨by rw [hrec]; simp [callbacksOf], .inl (.inl rfl)⟩
      · exact ⟨by simpa [hrec] using (acdRestart_dead cfg a).2, .inl (acdRestart_dead cfg a).1⟩
      · refine ⟨by rw [hrec]; simp [callbacksOf],
          .inr ⟨rfl, by rw [hrec]; rfl,
          .inr ⟨hu.1, by simp [recordConflict]⟩, fun _ _ _ hp' => ?_⟩⟩
        exact absurd hu.1 hp'.not_inUse
    · refine ⟨by simp [callbacksOf], .inr ⟨rfl, rfl, .inl rfl, ?_⟩⟩
      rintro m' hdr' ⟨rfl, rfl⟩ hp'
      exact fun hc => hp ⟨hp', hc⟩
  | ipAddrChanged old new =>
    rw [acdStep_ipAddrChanged]
    split_ifs
    · exact ⟨(acdPutInPassiveMode_dead a).2, .inl (acdPutInPassiveMode_dead a).1⟩
    · exact ⟨by simp [callbacksOf], .inr ⟨rfl, rfl, .inl rfl, by simp⟩⟩

theorem acdStep_ipaddr (a : Acd) {i : Input} (hs : i.isStart = false) :
    (acdStep cfg a i).1.ipaddr = a.ipaddr := by
  cases i with
  | acdStart => cases hs
  | acdStop => rfl
  | acdTmr rand => exact acdTmrEntry_ipaddr rand a
  | acdArpReply m hdr =>
    show (acdArpReplyEntry cfg m hdr a).1.ipaddr = a.ipaddr
    rw [acdArpReplyEntry_eq]
    split_ifs
    · exact acdRestart_ipaddr cfg a
    · unfold acdHandleArpConflict; split_ifs <;> first | rfl | exact acdRestart_ipaddr cfg a
    · rfl
  | ipAddrChanged old new =>
    rw [acdStep_ipAddrChanged]; split_ifs
    · exact acdPutInPassiveMode_ipaddr a
    · rfl

/-- Off the schedule, a context stays off it until the next `acd_start`, and never delivers
`IP_OK`. -/
theorem acdStep_dead {a : Acd} (h : Dead a) {i : Input} (hs : i.isStart = false) :
    Dead (acdStep cfg a i).1 ∧ .ipOk ∉ callbacksOf (acdStep cfg a i).2 := by
  cases hi : i.isTmr
  · obtain ⟨hok, hd | ⟨hpost, -⟩⟩ := acdStep_other cfg a hi hs
    · exact ⟨hd, hok⟩
    · exact ⟨by rw [hpost]; exact h, hok⟩
  · obtain ⟨rand, rfl⟩ : ∃ rand, i = .acdTmr rand := by
      cases i <;> simp [Input.isTmr] at hi; exact ⟨_, rfl⟩
    simp only [acdStep]
    rcases h with h | h | h
    · rw [acdTmrEntry_quiet _ (.inl h)]; simp [Dead, h, callbacksOf]
    · rw [acdTmrEntry_rateLimit _ h]; split_ifs <;> simp [Dead, h, callbacksOf]
    · rw [acdTmrEntry_quiet _ (.inr h)]; simp [Dead, h, callbacksOf]

theorem execPost_dead :
    ∀ (a : Acd) (is : List Input), Dead a → (∀ i ∈ is, i.isStart = false) → Dead (execPost cfg a is)
  | _, [], h, _ => h
  | _, i :: is, h, hs =>
    execPost_dead _ is (acdStep_dead cfg h (hs i (List.mem_cons_self _ _))).1
      fun j hj => hs j (List.mem_cons_of_mem _ hj)

theorem execPost_ipaddr :
    ∀ (a : Acd) (is : List Input), (∀ i ∈ is, i.isStart = false) →
      (execPost cfg a is).ipaddr = a.ipaddr
  | _, [], _ => rfl
  | a, i :: is, hs =>
    (execPost_ipaddr (acdStep cfg a i).1 is fun j hj => hs j (List.mem_cons_of_mem _ hj)).trans
      (acdStep_ipaddr cfg a (hs i (List.mem_cons_self _ _)))

/-- Only a tick in `ANNOUNCE_WAIT` or `ANNOUNCING` delivers `IP_OK`, and only with
`ANNOUNCE_NUM` in the range of `sent_num`. -/
theorem acdStep_ipOk {a : Acd} {i : Input} (h : .ipOk ∈ callbacksOf (acdStep cfg a i).2) :
    i.isTmr ∧ (a.state = .announceWait ∨ a.state = .announcing) ∧ cfg.announceNum < 2 ^ 16 := by
  cases hi : i.isTmr
  · cases hs : i.isStart
    · exact absurd h (acdStep_other cfg a hi hs).1
    · obtain ⟨rand, ip, rfl⟩ : ∃ rand ip, i = .acdStart rand ip := by
        cases i <;> simp [Input.isStart] at hs; exact ⟨_, _, rfl⟩
      simp [callbacksOf] at h
  · obtain ⟨rand, rfl⟩ : ∃ rand, i = .acdTmr rand := by
      cases i <;> simp [Input.isTmr] at hi; exact ⟨_, rfl⟩
    refine ⟨rfl, ?_⟩
    simp only [acdStep] at h
    rcases acdTmrEntry_cases rand a with he | ⟨-, -, -, he⟩ | ⟨-, -, -, he⟩ | ⟨-, -, -, he⟩ |
      ⟨hs, -, hn, -⟩ | ⟨-, -, -, he⟩ | ⟨-, -, he⟩ <;>
      first
      | exact ⟨hs, hn.trans_lt (u16_lt _)⟩
      | rw [he] at h; simp [callbacksOf] at h

/-- Still probing, or off the schedule. -/
def ProbesForever (a : Acd) : Prop := a.state = .probeWait ∨ a.state = .probing ∨ Dead a

/-- With `PROBE_NUM` beyond the range of `sent_num`, `sent_num` never reaches it: a started
context probes until it is taken off the schedule. -/
theorem probesForever_step (hP : 2 ^ 16 ≤ cfg.probeNum) {a : Acd} (h : ProbesForever a)
    (i : Input) : ProbesForever (acdStep cfg a i).1 := by
  cases hs : i.isStart
  · cases hi : i.isTmr
    · obtain ⟨-, hd | ⟨hpost, -⟩⟩ := acdStep_other cfg a hi hs
      · exact .inr (.inr hd)
      · rw [hpost]; exact h
    · obtain ⟨rand, rfl⟩ : ∃ rand, i = .acdTmr rand := by
        cases i <;> simp [Input.isTmr] at hi; exact ⟨_, rfl⟩
      have hlt := u16_lt (a.sentNum + 1)
      rcases h with h | h | h
      · rw [acdStep, acdTmrEntry_probe _ (.inl h)]
        split_ifs <;> first | omega | simp [ProbesForever, h]
      · rw [acdStep, acdTmrEntry_probe _ (.inr h)]
        split_ifs <;> first | omega | simp [ProbesForever, h]
      · exact .inr (.inr (acdStep_dead cfg h hs).1)
  · obtain ⟨rand, ip, rfl⟩ : ∃ rand ip, i = .acdStart rand ip := by
      cases i <;> simp [Input.isStart] at hs; exact ⟨_, _, rfl⟩
    exact .inl rfl

end AcdEngine
