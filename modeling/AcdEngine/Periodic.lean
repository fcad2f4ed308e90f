import AcdEngine.Defend
/-!
# The periodic probe in `ONGOING`

This build probes for its address in `ONGOING` every
`CONFIG_OPENER_ACD_PERIODIC_DEFEND_INTERVAL_MS`, converted to ticks by
`OPENER_ACD_MS_TO_TICKS`. The macro rounds up and narrows the result to
`u16_t`, and the probe fires whenever `ttw` is 0, so the period is
`max 1 (⌈ms / I⌉ mod 2^16)` (`periodicPeriod`): `⌈ms / I⌉` below `2^16`, and
something else above.

- `periodic_defend_cadence`: while a context stays `ONGOING`, its ticks probe
  exactly on the multiples of the period after it entered, and never when the
  interval is 0.
- `periodic_defend_wraps`: at 6553600 ms and 100 ms ticks, where
  `⌈ms / I⌉ = 65536`, a context probes on the first tick after it enters
  `ONGOING`.
-/

namespace AcdEngine

variable (cfg : Config)

/-- The ticks between two periodic probes. -/
def periodicPeriod (ms : Nat) : Nat := max (cfg.msToTicks ms) 1

/-- Below `2^16` ticks the period is the interval rounded up to ticks. -/
theorem periodicPeriod_of_lt {ms : Nat} (hms : 0 < ms)
    (h : (ms + (cfg.acdTmrInterval - 1)) / cfg.acdTmrInterval < 2 ^ 16) :
    periodicPeriod cfg ms = (ms + (cfg.acdTmrInterval - 1)) / cfg.acdTmrInterval := by
  have hI := cfg.acdTmrInterval_pos
  have hpos : 0 < (ms + (cfg.acdTmrInterval - 1)) / cfg.acdTmrInterval :=
    Nat.div_pos (by omega) hI
  simp only [periodicPeriod, Config.msToTicks, Nat.pos_iff_ne_zero.1 hms, if_false, u16_of_lt h]
  omega

/-- The `ttw` before the tick after `k` ticks in `ONGOING`, and the tick's
probe, follow the period. -/
theorem period_step (p k : Nat) :
    (p - (k + 1) % max p 1 = if p - k % max p 1 ≤ 1 then p else p - k % max p 1 - 1) ∧
      (p - k % max p 1 ≤ 1 ↔ (k + 1) % max p 1 = 0) := by
  rcases Nat.lt_or_ge p 2 with hp | hp
  · simp [show max p 1 = 1 by omega, show p ≤ 1 by omega, Nat.mod_one]
  · have hk := Nat.mod_lt k (by omega : 0 < p)
    rw [show max p 1 = p by omega, Nat.add_mod_eq_ite, Nat.mod_eq_of_lt (by omega : 1 < p)]
    generalize k % p = r at *
    constructor
    · split_ifs <;> omega
    · split_ifs <;> constructor <;> intro h <;> first | exact h.elim | omega

/-- A call other than a tick that leaves a context in `ONGOING` leaves its
`ttw` alone. -/
theorem ongoing_keep_ttw {a : Acd} (h : a.state = .ongoing) {i : Input} (hi : i.isTmr = false)
    (hpost : (acdStep cfg a i).1.state = .ongoing) : (acdStep cfg a i).1.ttw = a.ttw := by
  cases i with
  | acdTmr => simp [Input.isTmr] at hi
  | acdStart | acdStop => simp [acdStep] at hpost
  | acdArpReply m hdr =>
    simp only [acdStep, acdArpReplyEntry_eq] at hpost ⊢
    split_ifs at hpost ⊢
    · rcases acdRestart_state cfg a with h' | h' <;> simp [h'] at hpost
    · unfold acdHandleArpConflict at hpost ⊢
      split_ifs at hpost ⊢
      · simp [acdStop] at hpost
      · rcases acdRestart_state cfg a with h' | h' <;> simp [h'] at hpost
      · rfl
    · rfl
  | ipAddrChanged old new =>
    rw [acdStep_ipAddrChanged] at hpost ⊢
    split_ifs at hpost ⊢
    · simp [acdPutInPassiveMode, h] at hpost
    · rfl

/-- Only a tick enters `ONGOING`, and it sets `ttw` to the period. -/
theorem enter_ongoing {a : Acd} {i : Input} (h1 : a.state ≠ .ongoing)
    (h2 : (acdStep cfg a i).1.state = .ongoing) :
    i.isTmr ∧ (acdStep cfg a i).1.ttw = cfg.acdPeriodicDefendIntervalTicks := by
  cases i with
  | acdStart | acdStop => simp [acdStep] at h2
  | acdTmr rand =>
    refine ⟨rfl, ?_⟩
    simp only [acdStep] at h2 ⊢
    have hs : a.state = .announceWait ∨ a.state = .announcing := by
      rcases acdTmrEntry_edge cfg a rand with h | h
      · exact absurd (h.symm.trans h2) h1
      · rw [h2] at h; simpa [Edge] using h
    rw [acdTmrEntry_announce rand hs] at h2 ⊢
    split_ifs at h2 ⊢ with h3 h4 h5 <;> first | rfl | (rcases hs with hs | hs <;> simp_all)
  | acdArpReply m hdr =>
    exfalso
    simp only [acdStep, acdArpReplyEntry_eq] at h2
    split_ifs at h2
    · rcases acdRestart_state cfg a with h | h <;> simp [h] at h2
    · unfold acdHandleArpConflict at h2
      split_ifs at h2
      · simp [acdStop] at h2
      · rcases acdRestart_state cfg a with h | h <;> simp [h] at h2
      · exact h1 h2
    · exact h1 h2
  | ipAddrChanged old new =>
    exfalso
    rw [acdStep_ipAddrChanged] at h2
    split_ifs at h2
    · unfold acdPutInPassiveMode at h2
      cases hs : a.state <;> simp [hs, acdStop] at h2 h1
    · exact h1 h2

/-- The cadence of the periodic probe over one context's part of a run:
after a tick enters `ONGOING`, while the other calls keep the context there,
every tick keeps it there and probes exactly when the ticks since entering
are a multiple of the period; with the interval 0 no tick in `ONGOING`
probes. -/
def PeriodicCadence (ms : Nat) (tr : List Step) : Prop :=
  (∀ xs e ys zs, tr = xs ++ e :: ys ++ zs → e.pre.state ≠ .ongoing → e.post.state = .ongoing →
    (∀ st ∈ ys, st.input.isTmr = false → st.post.state = .ongoing) →
    e.input.isTmr ∧ ∀ ys₁ st ys₂, ys = ys₁ ++ st :: ys₂ → st.input.isTmr →
      st.post.state = .ongoing ∧
        st.out = if 0 < ms ∧ (ticks ys₁ + 1) % periodicPeriod cfg ms = 0 then
          [.etharpAcdProbe st.pre.ipaddr] else []) ∧
  (ms = 0 → ∀ st ∈ tr, st.input.isTmr → st.pre.state = .ongoing → st.out = [])

section Periodic

variable {cfg} {ms : Nat} (hcfg : cfg.periodicDefendIntervalMs = some ms)
include hcfg

/-- A tick in `ONGOING` probes when the interval is set and `ttw` runs out. -/
theorem acdTmrEntry_periodic {a : Acd} (h : a.state = .ongoing) (rand : Nat) :
    acdTmrEntry cfg rand a =
      if 0 < ms ∧ a.ttw ≤ 1 then
        ({ tmrCountdown a with ttw := cfg.msToTicks ms }, [.etharpAcdProbe a.ipaddr])
      else (tmrCountdown a, []) := by
  rw [acdTmrEntry_ongoing rand h]
  simp [Config.periodicDefendOn, Config.acdPeriodicDefendIntervalTicks, hcfg]

/-- One call in `ONGOING`, `k` ticks after entering, with `ttw` on the
period: a tick probes on the multiples of the period, and every call that
keeps the context `ONGOING` keeps `ttw` on the period. -/
theorem acdStep_periodic {b : Acd} (hs : b.state = .ongoing) {k : Nat}
    (ht : b.ttw = cfg.msToTicks ms - k % periodicPeriod cfg ms) {i : Input}
    (hw : i.isTmr = false → (acdStep cfg b i).1.state = .ongoing) :
    (acdStep cfg b i).1.state = .ongoing ∧
      (acdStep cfg b i).1.ttw =
        cfg.msToTicks ms - (k + if i.isTmr then 1 else 0) % periodicPeriod cfg ms ∧
      (i.isTmr → (acdStep cfg b i).2 =
        if 0 < ms ∧ (k + 1) % periodicPeriod cfg ms = 0 then [.etharpAcdProbe b.ipaddr] else []) := by
  cases hi : i.isTmr
  · simp only [if_false, Nat.add_zero, Bool.false_eq_true, false_implies, and_true]
    exact ⟨hw hi, (ongoing_keep_ttw cfg hs hi (hw hi)).trans ht⟩
  · obtain ⟨rand, rfl⟩ : ∃ rand, i = .acdTmr rand := by
      cases i <;> simp [Input.isTmr] at hi; exact ⟨_, rfl⟩
    obtain ⟨hstep, hiff⟩ := period_step (cfg.msToTicks ms) k
    simp only [acdStep, acdTmrEntry_periodic hcfg hs, if_true]
    rcases Nat.eq_zero_or_pos ms with rfl | hms
    · simp [Config.msToTicks, periodicPeriod] at ht ⊢; simp [ht, hs]
    · simp only [periodicPeriod] at ht ⊢
      rw [← ht] at hstep hiff
      simp only [hms, true_and]
      by_cases h1 : b.ttw ≤ 1
      · simp [h1, hiff.1 h1, hs, hstep]
      · simp [h1, mt hiff.2 h1, hs, hstep]

/-- From entering `ONGOING` on, while the context stays there, `ttw` follows
the period. -/
theorem execPost_periodic :
    ∀ (b : Acd) (k : Nat) (is : List Input), b.state = .ongoing →
      b.ttw = cfg.msToTicks ms - k % periodicPeriod cfg ms →
      (∀ st ∈ exec cfg b is, st.input.isTmr = false → st.post.state = .ongoing) →
      (execPost cfg b is).state = .ongoing ∧
        (execPost cfg b is).ttw = cfg.msToTicks ms - (k + ticks (exec cfg b is)) % periodicPeriod cfg ms
  | b, k, [], hs, ht, _ => ⟨hs, by simpa [ticks, exec] using ht⟩
  | b, k, i :: is, hs, ht, hw => by
    obtain ⟨hs', ht', -⟩ := acdStep_periodic hcfg hs ht (fun hi => hw _ (List.mem_cons_self _ _) hi)
    have ih := execPost_periodic (acdStep cfg b i).1 _ is hs' ht'
      (fun st hst => hw st (List.mem_cons_of_mem _ hst))
    have hticks : ticks (exec cfg b (i :: is)) =
        (if i.isTmr then 1 else 0) + ticks (exec cfg (acdStep cfg b i).1 is) := by
      cases h : i.isTmr <;> simp [exec, ticks, List.countP_cons, h, Nat.add_comm]
    rw [hticks, ← Nat.add_assoc]
    exact ih

/-- Periodic active defence: with the interval set to `ms`, every context
keeps `PeriodicCadence` in every run. -/
theorem periodic_defend_cadence (s : Stack) (evs : List Event) (q : Nat) :
    PeriodicCadence cfg ms (contextTrace cfg q s evs) := by
  refine ⟨fun xs e ys zs h he1 he2 hw => ?_, fun hms st hst htmr hpre => ?_⟩
  · rw [List.append_assoc, List.cons_append] at h
    obtain ⟨-, hpost, hrest⟩ := contextTrace_eq_append_cons cfg h
    have hys := (exec_eq_append cfg hrest.symm).1
    obtain ⟨htick, httw⟩ := enter_ongoing cfg he1 (hpost ▸ he2)
    refine ⟨htick, fun ys₁ st ys₂ hsplit htmr => ?_⟩
    obtain ⟨h1, h2⟩ := exec_eq_append cfg (hys.symm.trans hsplit)
    have hw₁ : ∀ st ∈ exec cfg e.post (ys₁.map Step.input), st.input.isTmr = false →
        st.post.state = .ongoing := by
      rw [← h1]
      exact fun st' hs' => hw st' (by rw [hsplit]; exact List.mem_append_left _ hs')
    have ht0 : e.post.ttw = cfg.msToTicks ms - 0 % periodicPeriod cfg ms := by
      rw [hpost, httw]; simp [Config.acdPeriodicDefendIntervalTicks, hcfg]
    obtain ⟨hs₁, ht₁⟩ := execPost_periodic hcfg e.post 0 _ he2 ht0 hw₁
    rw [← h1, Nat.zero_add, ← exec_cons_pre cfg h2] at ht₁
    rw [← exec_cons_pre cfg h2] at hs₁
    obtain ⟨ho, hp⟩ := mem_contextTrace_step cfg (by rw [h, hsplit]; simp : st ∈ _)
    obtain ⟨hs', -, hout⟩ := acdStep_periodic hcfg hs₁ ht₁
      (fun (hi : st.input.isTmr = false) => by simp [hi] at htmr)
    rw [ho, hp]
    exact ⟨hs', hout htmr⟩
  · obtain ⟨rand, hi⟩ : ∃ rand, st.input = .acdTmr rand := by
      cases h : st.input <;> simp [h, Input.isTmr] at htmr; exact ⟨_, rfl⟩
    rw [(mem_contextTrace_step cfg hst).1, hi]
    simp [acdStep, acdTmrEntry_periodic hcfg hpre, hms]

end Periodic

/-- A build with one tick a second and a periodic defend interval of 5 s, the
spec's probe and announce times otherwise. -/
def periodicConfig : Config where
  acdTmrInterval := 1000
  probeWaitMs := 0
  probeMinMs := 1000
  probeMaxMs := 2000
  probeNum := 3
  announceNum := 2
  announceWaitMs := 2000
  announceIntervalMs := 2000
  periodicDefendIntervalMs := some 5000
  maxConflicts := 10
  rateLimitInterval := 60
  defendInterval := 10
  acdTmrInterval_pos := by decide
  rateLimit_lt := by decide
  defend_lt := by decide

example : periodicPeriod periodicConfig 5000 = 5 := by decide

/-- `acd_start` and 12 ticks: the context reaches `ONGOING`, and the 12th tick
sends a periodic probe from there. -/
theorem periodic_defend_cadence_periodicConfig :
    periodicConfig.periodicDefendIntervalMs = some 5000 ∧
      PeriodicCadence periodicConfig 5000 (contextTrace periodicConfig 0 soloStack (startTicksRun 12)) ∧
      (contextTrace periodicConfig 0 soloStack (startTicksRun 12)).getLast?.map
        (fun st => (st.pre.state, st.input, st.out)) =
        some (.ongoing, .acdTmr 0, [.etharpAcdProbe linkLocalAddr]) :=
  ⟨rfl, periodic_defend_cadence rfl soloStack (startTicksRun 12) 0, by decide⟩

/-! ## A period of `2^16` ticks -/

/-- A build whose periodic interval rounds up to `2^16` ticks of 100 ms, with
one probe and one announce, each a tick apart. -/
def wrapConfig : Config :=
  { specConfig with probeMinMs := 100, probeMaxMs := 100, probeNum := 1, announceNum := 1,
                    announceWaitMs := 100, announceIntervalMs := 100,
                    periodicDefendIntervalMs := some 6553600 }

/-- `acd_start` on 169.254.0.1, then three ticks. -/
def wrapRun : List Event :=
  [.acdStart 0 linkLocalAddr 0, .acdTmr (fun _ => 0), .acdTmr (fun _ => 0), .acdTmr (fun _ => 0)]

/-- The spec's cadence of `⌈ms / I⌉` ticks fails at `ms = 6553600`, `I = 100`:
`⌈ms / I⌉ = 65536`, but the context enters `ONGOING` on the second tick and
probes again on the third. -/
theorem periodic_defend_wraps :
    (6553600 + (wrapConfig.acdTmrInterval - 1)) / wrapConfig.acdTmrInterval = 2 ^ 16 ∧
      (contextTrace wrapConfig 0 soloStack wrapRun).map (fun st => (st.post.state, st.out)) =
        [(.probeWait, []), (.announceWait, [.etharpAcdProbe linkLocalAddr]),
          (.ongoing, [.etharpAcdAnnounce linkLocalAddr, .callback .ipOk]),
          (.ongoing, [.etharpAcdProbe linkLocalAddr])] := by
  decide

end AcdEngine
