import AcdEngine.Schedule
/-!
# Claiming an address

An epoch of a context, from its `acd_start` on, follows the schedule of
`Schedule` as long as no call takes it off: its ticks send the probes and the
announces on the ticks the schedule names, and `IP_OK` comes on tick `T` and
on no other (`exec_onSchedule`). What `LWIP_ACD_RAND` returned on each tick
is read off the run (`tickRand`).

- `time_to_ip_ok`: an epoch of ticks and frames that do not conflict delivers
  `IP_OK` exactly on tick `T`, and each tick up to it sends what the schedule
  says.
- `address_claim`: when a tick delivers `IP_OK`, the epoch before it sent the
  probes, waited, and announced as RFC 5227 §2.1.1 asks, met no conflicting
  frame while probing, and was never taken off the schedule.
-/

namespace AcdEngine

/-! ## What a run sent and drew -/

/-- The probes and announces the ticks among the steps sent, in order. -/
def tickSends (tr : List Step) : List Action := sends (tr.filter (·.input.isTmr))

/-- The value `LWIP_ACD_RAND` returned to a tick. -/
def Input.tmrRand? : Input → Option Nat
  | .acdTmr rand => some rand
  | _ => none

/-- What `LWIP_ACD_RAND` returned on the `n`-th tick of the steps, counting from 1. -/
def tickRand (tr : List Step) (n : Nat) : Nat :=
  ((tr.map Step.input).filterMap Input.tmrRand?).getD (n - 1) 0

/-- The `n`-th tick of the inputs after `m` ticks draws `rd (m + n)`. -/
def DrawsFrom (rd : Nat → Nat) (m : Nat) (is : List Input) : Prop :=
  ∀ is₁ rand is₂, is = is₁ ++ .acdTmr rand :: is₂ → rand = rd (m + is₁.countP Input.isTmr + 1)

@[simp] theorem tickSends_nil : tickSends [] = [] := rfl

@[simp] theorem tickSends_cons (st : Step) (tr : List Step) :
    tickSends (st :: tr) =
      (if st.input.isTmr then st.out.filter Action.isSend else []) ++ tickSends tr := by
  unfold tickSends; cases h : st.input.isTmr <;> simp [h]

@[simp] theorem tickSends_append (tr tr' : List Step) :
    tickSends (tr ++ tr') = tickSends tr ++ tickSends tr' := by
  simp [tickSends]

theorem length_filterMap_tmrRand (is : List Input) :
    (is.filterMap Input.tmrRand?).length = is.countP Input.isTmr := by
  induction is with
  | nil => rfl
  | cons i is ih => cases i <;> simp [Input.tmrRand?, Input.isTmr, List.countP_cons, ih]

theorem drawsFrom_tickRand (tr : List Step) : DrawsFrom (tickRand tr) 0 (tr.map Step.input) := by
  intro is₁ rand is₂ h
  simp only [tickRand, h, List.filterMap_append, List.filterMap_cons, Input.tmrRand?,
    ← length_filterMap_tmrRand, Nat.zero_add, Nat.add_sub_cancel]
  simp [List.getElem_append_right]

theorem DrawsFrom.tmr {rd : Nat → Nat} {m rand : Nat} {is : List Input}
    (h : DrawsFrom rd m (.acdTmr rand :: is)) : rand = rd (m + 1) ∧ DrawsFrom rd (m + 1) is := by
  refine ⟨h [] rand is rfl, fun is₁ r is₂ he => ?_⟩
  rw [h (.acdTmr rand :: is₁) r is₂ (by rw [he]; rfl), List.countP_cons]
  simp only [Input.isTmr, if_true]
  congr 1; omega

theorem DrawsFrom.other {rd : Nat → Nat} {m : Nat} {i : Input} {is : List Input}
    (hi : i.isTmr = false) (h : DrawsFrom rd m (i :: is)) : DrawsFrom rd m is := fun is₁ r is₂ he => by
  rw [h (i :: is₁) r is₂ (by rw [he]; rfl), List.countP_cons, hi]; rfl

theorem DrawsFrom.append_left {rd : Nat → Nat} {m : Nat} {is js : List Input}
    (h : DrawsFrom rd m (is ++ js)) : DrawsFrom rd m is := fun is₁ r is₂ he =>
  h is₁ r (is₂ ++ js) (by rw [he]; simp)

theorem Input.isStart_of_isTmr {i : Input} (h : i.isTmr) : i.isStart = false := by
  cases i <;> simp_all [Input.isTmr, Input.isStart]

/-! ## The schedule along a run -/

variable (cfg : Config)

section Run

variable {cfg} {w : Nat} {rd : Nat → Nat} {ip : Ip4Addr}
variable (hP : cfg.probeNum < 2 ^ 16) (hA : cfg.announceNum < 2 ^ 16)
include hP hA

/-- Along a run on the schedule in which no call but a tick moves the context, it stays on the
schedule, its ticks send what the schedule says, and `IP_OK` comes on tick `T` alone. -/
theorem exec_onSchedule :
    ∀ (is : List Input) (m : Nat) (a : Acd) (tsent sent : List Action),
      OnSchedule cfg w rd ip m a tsent sent → a.ipaddr = ip → DrawsFrom rd m is →
      (∀ st ∈ exec cfg a is, st.input.isStart = false ∧
        (st.input.isTmr = false → ¬ Dead st.pre → ¬ Dead st.post)) →
      OnSchedule cfg w rd ip (m + ticks (exec cfg a is)) (execPost cfg a is)
          (tsent ++ tickSends (exec cfg a is)) (sent ++ sends (exec cfg a is)) ∧
        callbacks (exec cfg a is) =
          if m < ipOkTime cfg w rd ∧ ipOkTime cfg w rd ≤ m + ticks (exec cfg a is) then [.ipOk]
          else []
  | [], m, a, tsent, sent, h, _, _, _ => by
    simp only [exec, ticks, List.countP_nil, Nat.add_zero, tickSends, sends, List.filter_nil,
      List.flatMap_nil, List.append_nil, callbacks]
    exact ⟨h, by rw [if_neg (by omega)]⟩
  | i :: is, m, a, tsent, sent, h, hip, hrd, hst => by
    obtain ⟨hs, hlive⟩ := hst _ (List.mem_cons_self _ _)
    have hst' := fun st h' => hst st (List.mem_cons_of_mem _ h')
    have hip' : (acdStep cfg a i).1.ipaddr = ip := (acdStep_ipaddr cfg a hs).trans hip
    rw [callbacks_exec_cons]
    simp only [exec, ticks_cons, tickSends_cons, sends_cons] at hst' ⊢
    cases hi : i.isTmr
    · obtain ⟨-, hd | ⟨hpost, hcb, hsend, -⟩⟩ := acdStep_other cfg a hi hs
      · exact absurd hd (hlive hi h.not_dead)
      have h' : OnSchedule cfg w rd ip m (acdStep cfg a i).1 tsent
          (sent ++ (acdStep cfg a i).2.filter Action.isSend) := by
        rw [hpost]
        rcases hsend with hsend | ⟨hu, hsend⟩
        · rw [hsend, List.append_nil]; exact h.with_lastconflict _
        · rw [hsend]; exact (h.defend hu hip).with_lastconflict _
      obtain ⟨ih1, ih2⟩ := exec_onSchedule is m _ _ _ h' hip' (hrd.other hi) hst'
      exact ⟨by simpa [List.append_assoc] using ih1, by simpa [hcb] using ih2⟩
    · obtain ⟨rand, rfl⟩ : ∃ rand, i = .acdTmr rand := by
        cases i <;> simp [Input.isTmr] at hi; exact ⟨_, rfl⟩
      obtain ⟨rfl, hrd'⟩ := hrd.tmr
      obtain ⟨h', -, hcb⟩ := acdTmrEntry_onSchedule hP hA h hip
      obtain ⟨ih1, ih2⟩ := exec_onSchedule is (m + 1) _ _ _ h' hip' hrd' hst'
      refine ⟨by simpa [acdStep, Input.isTmr, List.append_assoc, Nat.add_assoc, Nat.add_comm 1]
        using ih1, ?_⟩
      simp only [acdStep, hcb, ih2, Input.isTmr, if_true]
      split_ifs <;> first | rfl | omega

/-- The schedule on every prefix of an epoch in which only ticks take the context off it. -/
theorem epoch_onSchedule {a₀ : Acd} {is : List Input} {tr pre post : List Step}
    (h0 : OnSchedule cfg w (tickRand tr) ip 0 a₀ [] []) (hip : a₀.ipaddr = ip)
    (htr : tr = exec cfg a₀ is)
    (hst : ∀ st ∈ tr, st.input.isStart = false ∧
      (st.input.isTmr = false → ¬ Dead st.pre → ¬ Dead st.post))
    (hsplit : tr = pre ++ post) :
    OnSchedule cfg w (tickRand tr) ip (ticks pre) (execPost cfg a₀ (pre.map Step.input))
        (tickSends pre) (sends pre) ∧
      (execPost cfg a₀ (pre.map Step.input)).ipaddr = ip ∧
      callbacks pre = if ipOkTime cfg w (tickRand tr) ≤ ticks pre then [.ipOk] else [] := by
  have hpre := (exec_eq_append cfg (htr.symm.trans hsplit)).1
  have hst' : ∀ st ∈ pre, _ := fun st h => hst st (hsplit ▸ List.mem_append_left _ h)
  have hrd : DrawsFrom (tickRand tr) 0 (pre.map Step.input ++ post.map Step.input) := by
    rw [← List.map_append, ← hsplit]; exact drawsFrom_tickRand tr
  obtain ⟨h1, h2⟩ := exec_onSchedule hP hA (pre.map Step.input) 0 a₀ [] [] h0 hip hrd.append_left
    (by rw [← hpre]; exact hst')
  rw [← hpre] at h1 h2
  refine ⟨by simpa using h1, (execPost_ipaddr cfg _ _ ?_).trans hip, by rw [h2]; simp [ipOkTime_pos]⟩
  simp only [List.mem_map]
  rintro _ ⟨st, h, rfl⟩
  exact (hst' st h).1

/-- A tick of an epoch in which only ticks take the context off the schedule. -/
theorem epoch_tick {a₀ : Acd} {is : List Input} {tr pre post : List Step} {st : Step}
    (h0 : OnSchedule cfg w (tickRand tr) ip 0 a₀ [] []) (hip : a₀.ipaddr = ip)
    (htr : tr = exec cfg a₀ is)
    (hst : ∀ st ∈ tr, st.input.isStart = false ∧
      (st.input.isTmr = false → ¬ Dead st.pre → ¬ Dead st.post))
    (hsplit : tr = pre ++ st :: post) (ht : st.input.isTmr) :
    OnSchedule cfg w (tickRand tr) ip (ticks pre + 1) st.post
        (tickSends pre ++ st.out.filter Action.isSend) (sends pre ++ st.out.filter Action.isSend) ∧
      (ticks pre + 1 ≤ ipOkTime cfg w (tickRand tr) →
        st.out = schedOut cfg w (tickRand tr) ip (ticks pre + 1)) ∧
      callbacksOf st.out =
        if ticks pre + 1 = ipOkTime cfg w (tickRand tr) then [.ipOk] else [] := by
  obtain ⟨hon, hip', -⟩ := epoch_onSchedule hP hA h0 hip htr hst hsplit
  obtain ⟨hout, hpost, -⟩ := exec_eq_append_cons cfg (htr.symm.trans hsplit)
  have hpre := exec_cons_pre cfg (exec_eq_append cfg (htr.symm.trans hsplit)).2
  obtain ⟨r, hi⟩ : ∃ r, st.input = .acdTmr r := by
    cases h : st.input <;> simp [h, Input.isTmr] at ht; exact ⟨_, rfl⟩
  have hr : r = tickRand tr (ticks pre + 1) := by
    have := drawsFrom_tickRand tr (pre.map Step.input) r (post.map Step.input) (by rw [hsplit]; simp [hi])
    rwa [List.countP_map, Nat.zero_add] at this
  rw [hout, hpost, hi, acdStep, hr, hpre]
  exact acdTmrEntry_onSchedule hP hA hon hip'

end Run

/-- The step of an `acd_start` for `ip` in a context's trace: the context enters `PROBE_WAIT`
on the schedule's tick 0, whatever the ticks after it draw, with the initial wait it drew in
range, and the steps after it run from there. -/
theorem epoch_start {q : Nat} {s : Stack} {evs : List Event} {xs rest : List Step} {e : Step}
    {rand : Nat} {ip : Ip4Addr} (htr : contextTrace cfg q s evs = xs ++ e :: rest)
    (he : e.input = .acdStart rand ip) :
    (∀ rd, OnSchedule cfg e.post.ttw rd ip 0 e.post [] []) ∧ e.post.state = .probeWait ∧
      e.post.ipaddr = ip ∧
      (e.post.ttw < max cfg.probeWaitTicks 1 ∧ (cfg.probeWaitMs = 0 → e.post.ttw = 0)) ∧
      rest = exec cfg e.post (rest.map Step.input) := by
  obtain ⟨-, hpost, hrest⟩ := contextTrace_eq_append_cons cfg htr
  rw [he, acdStep_acdStart] at hpost
  rw [hpost] at hrest ⊢
  exact ⟨fun _ => onSchedule_acdStart rand e.pre, rfl, rfl, acdRandomProbeWait_lt cfg rand, hrest⟩

/-! ## Time to `IP_OK` -/

/-- Time to `IP_OK` over one context's part of a run. Take an epoch, the steps `ys` after an
`acd_start`, made of ticks and of frames that do not conflict with the context, and let `w` be
the wait `acd_start` drew and `tickRand ys` what the ticks drew. Then `w` is below the probe
wait, and 0 without one; each interval drawn is between `MIN` and `max MIN (MAX - 1)`; `T` is
the sum of the waits; `IP_OK` comes once, on tick `T`, if the epoch has that many ticks; the
frames change nothing; and each tick up to `T` sends what the schedule says, the context
entering `ONGOING` on tick `T`. -/
def TimeToIpOk (tr : List Step) : Prop :=
  ∀ xs e ys zs rand ip, tr = xs ++ e :: ys ++ zs → e.input = .acdStart rand ip →
    (∀ st ∈ ys, st.input.isTmr ∨
      ∃ m hdr, st.input = .acdArpReply m hdr ∧ ¬ Conflicts m hdr st.pre) →
    let w := e.post.ttw
    let rd := tickRand ys
    (w < max cfg.probeWaitTicks 1 ∧ (cfg.probeWaitMs = 0 → w = 0)) ∧
    (∀ k, 0 < k → cfg.probeMinTicks ≤ probeGap cfg w rd k ∧
      probeGap cfg w rd k ≤ max cfg.probeMinTicks (cfg.probeMaxTicks - 1)) ∧
    ipOkTime cfg w rd =
      max w 1 + ((List.range (probeCount cfg - 1)).map fun i => max (probeGap cfg w rd (i + 1)) 1).sum +
        max cfg.acdAnnounceWaitTicksValue 1 +
        (announceCount cfg - 1) * cfg.acdAnnounceIntervalTicksValue ∧
    callbacks ys = (if ipOkTime cfg w rd ≤ ticks ys then [.ipOk] else []) ∧
    (∀ st ∈ ys, st.input.isTmr = false → st.post = st.pre ∧ st.out = []) ∧
    ∀ ys₁ st ys₂, ys = ys₁ ++ st :: ys₂ → st.input.isTmr →
      (st.post.state = .ongoing ↔ ipOkTime cfg w rd ≤ ticks ys₁ + 1) ∧
      (ticks ys₁ + 1 ≤ ipOkTime cfg w rd → st.out = schedOut cfg w rd ip (ticks ys₁ + 1))

/-- The spec's scenario: no probe wait, three probes 10 to 20 ticks apart, and two announces
20 ticks apart after a wait of 20 ticks. `IP_OK` comes between ticks 61 and 79. -/
theorem ipOkTime_specConfig (rd : Nat → Nat) :
    61 ≤ ipOkTime specConfig 0 rd ∧ ipOkTime specConfig 0 rd ≤ 79 := by
  have h1 := probeGap_mem specConfig 0 rd (show 0 < 1 by decide)
  have h2 := probeGap_mem specConfig 0 rd (show 0 < 2 by decide)
  have hmin : specConfig.probeMinTicks = 10 := rfl
  have hmax : specConfig.probeMaxTicks = 20 := rfl
  rw [ipOkTime_eq]
  simp only [show probeCount specConfig - 1 = 2 from rfl, show announceCount specConfig - 1 = 1 from rfl,
    show specConfig.acdAnnounceWaitTicksValue = 20 from rfl,
    show specConfig.acdAnnounceIntervalTicksValue = 20 from rfl, List.range_succ, List.range_zero,
    List.nil_append, List.map_append, List.map_cons, List.map_nil, List.sum_append, List.sum_cons,
    List.sum_nil, Nat.zero_add, show 1 + 1 = 2 from rfl] at h1 h2 ⊢
  omega

/-- Time to `IP_OK`: with `PROBE_NUM` and `ANNOUNCE_NUM` in the range of `sent_num`, every
context keeps `TimeToIpOk` in every run, and in the spec's scenario `T` is between 61 and 79. -/
theorem time_to_ip_ok (hP : cfg.probeNum < 2 ^ 16) (hA : cfg.announceNum < 2 ^ 16) (s : Stack)
    (evs : List Event) (q : Nat) :
    TimeToIpOk cfg (contextTrace cfg q s evs) ∧
      ∀ rd, 61 ≤ ipOkTime specConfig 0 rd ∧ ipOkTime specConfig 0 rd ≤ 79 := by
  refine ⟨fun xs e ys zs rand ip htr he hys => ?_, ipOkTime_specConfig⟩
  rw [List.append_assoc, List.cons_append] at htr
  obtain ⟨h0, -, hip0, hw, hrest⟩ := epoch_start cfg htr he
  have hyse := (exec_eq_append cfg hrest.symm).1
  have hnop : ∀ st ∈ ys, st.input.isTmr = false → st.post = st.pre ∧ st.out = [] := by
    intro st hst hi
    obtain ⟨m, hdr, hin, hnc⟩ := (hys st hst).resolve_left (by simp [hi])
    obtain ⟨hout, hp⟩ := mem_contextTrace_step cfg (by rw [htr]; simp [hst] : st ∈ contextTrace cfg q s evs)
    obtain ⟨h1, h2⟩ := (acdArpReplyEntry_classified cfg m hdr st.pre).1 hnc
    rw [hin] at hout hp
    exact ⟨hp.trans h1, hout.trans h2⟩
  have hst : ∀ st ∈ ys, st.input.isStart = false ∧
      (st.input.isTmr = false → ¬ Dead st.pre → ¬ Dead st.post) := by
    intro st hst
    refine ⟨?_, fun hi hd => by rwa [(hnop st hst hi).1]⟩
    rcases hys st hst with hi | ⟨m, hdr, hin, -⟩
    · exact Input.isStart_of_isTmr hi
    · simp [hin, Input.isStart]
  intro w rd
  refine ⟨hw, fun k hk => probeGap_mem cfg w rd hk,
    ipOkTime_eq cfg w rd, (epoch_onSchedule hP hA (h0 _) hip0 hyse hst (List.append_nil ys).symm).2.2,
    hnop, fun ys₁ st ys₂ hsplit ht => ?_⟩
  obtain ⟨hon, hout, -⟩ := epoch_tick hP hA (h0 _) hip0 hyse hst hsplit ht
  exact ⟨hon.ongoing_iff, hout⟩

/-- With every draw 0, `acd_start` and 61 ticks: `IP_OK` comes on the last tick,
at the earliest time the bound allows. -/
theorem time_to_ip_ok_specConfig :
    (specConfig.probeNum < 2 ^ 16 ∧ specConfig.announceNum < 2 ^ 16) ∧
      (TimeToIpOk specConfig (contextTrace specConfig 0 soloStack (startTicksRun 61)) ∧
        ∀ rd, 61 ≤ ipOkTime specConfig 0 rd ∧ ipOkTime specConfig 0 rd ≤ 79) ∧
      callbacks (contextTrace specConfig 0 soloStack (startTicksRun 60)) = [] ∧
      callbacks (contextTrace specConfig 0 soloStack (startTicksRun 61)) = [.ipOk] :=
  ⟨⟨by decide, by decide⟩,
    time_to_ip_ok specConfig (by decide) (by decide) soloStack (startTicksRun 61) 0, by decide,
    by decide⟩

/-! ## Address-claim safety -/

/-- Address-claim safety over one context's part of a run (RFC 5227 §2.1.1). When a call `f`
delivers `IP_OK`, it is a tick, and in the epoch up to it, the steps `ys` since the last
`acd_start`: the ticks sent `P` probes and then `A` announces, and all that was sent is those
probes followed by announces only; the first announce came `max AW 1` ticks after the last
probe; no frame that conflicts with the address came while probing; and no call took the
context off the schedule or reached its callback. -/
def AddressClaim (tr : List Step) : Prop :=
  ∀ xs e ys f zs rand ip, tr = xs ++ e :: ys ++ f :: zs → e.input = .acdStart rand ip →
    (∀ st ∈ ys, st.input.isStart = false) → .ipOk ∈ callbacksOf f.out →
    f.input.isTmr ∧
    tickSends (ys ++ [f]) = List.replicate (probeCount cfg) (.etharpAcdProbe ip) ++
      List.replicate (announceCount cfg) (.etharpAcdAnnounce ip) ∧
    (∃ d, sends (ys ++ [f]) = List.replicate (probeCount cfg) (.etharpAcdProbe ip) ++
      List.replicate (announceCount cfg + d) (.etharpAcdAnnounce ip)) ∧
    (∀ u p v a r, ys ++ [f] = u ++ p :: v ++ a :: r → p.input.isTmr → a.input.isTmr →
      tickSends u = List.replicate (probeCount cfg - 1) (.etharpAcdProbe ip) →
      p.out.filter Action.isSend = [.etharpAcdProbe ip] → tickSends v = [] →
      a.out.filter Action.isSend ≠ [] → ticks v + 1 = max cfg.acdAnnounceWaitTicksValue 1) ∧
    (∀ st ∈ ys, ∀ m hdr, st.input = .acdArpReply m hdr → st.pre.state.IsProbePhase →
      ¬ ProbeConflict m hdr ip) ∧
    callbacks ys = [] ∧ ∀ st ∈ ys, ¬ Dead st.post

/-- Address-claim safety: every context keeps `AddressClaim` in every run. -/
theorem address_claim (s : Stack) (evs : List Event) (q : Nat) :
    AddressClaim cfg (contextTrace cfg q s evs) := by
  intro xs e ys f zs rand ip htr he hys hf
  rw [List.append_assoc, List.cons_append] at htr
  obtain ⟨h0, hpw, hip0, -, hrest⟩ := epoch_start cfg htr he
  obtain ⟨hfout, -⟩ := mem_contextTrace_step cfg (by rw [htr]; simp : f ∈ contextTrace cfg q s evs)
  obtain ⟨hft, hfs, hA⟩ := acdStep_ipOk cfg (hfout ▸ hf)
  have hyf := (exec_eq_append cfg (hrest.symm.trans (by simp : ys ++ f :: zs = ys ++ [f] ++ zs))).1
  -- `PROBE_NUM` is in the range of `sent_num`, or the epoch would still be probing
  have hP : cfg.probeNum < 2 ^ 16 := by
    by_contra hge
    have hpf := (@mem_exec cfg ProbesForever (fun a i h => probesForever_step cfg (Nat.le_of_not_lt hge) h i)
      e.post _ (.inl hpw) f (by rw [← hrest]; simp)).1
    rcases hfs with h | h <;> rcases hpf with h' | h' | h' | h' | h' <;> simp [h] at h'
  -- nothing took the context off the schedule: it could not have come back before `f`
  have hlive : ∀ st ∈ ys, ¬ Dead st.post := by
    intro st hst hd
    obtain ⟨ys₁, ys₂, rfl⟩ := List.append_of_mem hst
    obtain ⟨-, -, h2⟩ := exec_eq_append_cons cfg
      (hrest.symm.trans (by simp : ys₁ ++ st :: ys₂ ++ f :: zs = ys₁ ++ st :: (ys₂ ++ f :: zs)))
    have hd' := execPost_dead cfg st.post (ys₂.map Step.input) hd (by
      simp only [List.mem_map]; rintro _ ⟨st', h, rfl⟩; exact hys st' (by simp [h]))
    rw [← exec_cons_pre cfg (exec_eq_append cfg h2.symm).2] at hd'
    rcases hfs with h | h <;> simp [Dead, h] at hd'
  have hst : ∀ st ∈ ys ++ [f], st.input.isStart = false ∧
      (st.input.isTmr = false → ¬ Dead st.pre → ¬ Dead st.post) := by
    intro st hst
    rcases List.mem_append.1 hst with h | h
    · exact ⟨hys st h, fun _ _ => hlive st h⟩
    · obtain rfl := List.mem_singleton.1 h
      exact ⟨Input.isStart_of_isTmr hft, fun h' => by simp [hft] at h'⟩
  have hsched := fun pre post (hsplit : ys ++ [f] = pre ++ post) =>
    epoch_onSchedule hP hA (h0 _) hip0 hyf hst hsplit
  -- the tick of `IP_OK` is `T`, and it sends the last announce
  obtain ⟨hon, -, hcb⟩ := hsched ys [f] rfl
  obtain ⟨-, hfo, hfcb⟩ := epoch_tick hP hA (h0 _) hip0 hyf hst
    (show ys ++ [f] = ys ++ f :: [] from rfl) hft
  have hT : ticks ys + 1 = ipOkTime cfg e.post.ttw (tickRand (ys ++ [f])) := by
    by_contra hne; rw [hfcb, if_neg hne] at hf; simp at hf
  rw [hT, schedOut_ipOkTime] at hfo
  obtain ⟨htsent, d, hsent⟩ := hon.eve hT
  have hA1 : 1 ≤ announceCount cfg := le_max_right _ _
  refine ⟨hft, ?_, ⟨d, ?_⟩, fun u p v a r hsplit hpt hat hu hp hv ha => ?_,
    fun st hst m hdr hin hpp hc => ?_, by rw [hcb, if_neg (by omega)], hlive⟩
  · -- (a) the ticks' probes and announces
    rw [tickSends_append, htsent, tickSends_cons, if_pos hft, hfo le_rfl]
    simp only [List.filter, Action.isSend, tickSends_nil, List.append_assoc, List.cons_append,
      List.nil_append, ← List.replicate_succ', Nat.sub_add_cancel hA1]
  · -- (a) everything sent
    rw [sends_append, hsent, htsent, sends_cons, hfo le_rfl]
    simp only [List.filter, Action.isSend, List.append_assoc, List.cons_append, List.nil_append]
    rw [sends_nil, ← List.replicate_succ', List.append_replicate_replicate,
      show announceCount cfg - 1 + (d + 1) = announceCount cfg + d by omega]
  · -- (b) the announce wait
    have hP1 : 1 ≤ probeCount cfg := le_max_right _ _
    have hpl : (tickSends (u ++ [p])).length = probeCount cfg := by
      rw [tickSends_append, hu, tickSends_cons, if_pos hpt, hp, tickSends_nil, List.append_nil,
        List.length_append, List.length_replicate, List.length_singleton, Nat.sub_add_cancel hP1]
    have hvl : tickSends (u ++ [p] ++ v) = tickSends (u ++ [p]) := by
      rw [tickSends_append _ v, hv, List.append_nil]
    have hal : 0 < (tickSends [a]).length := by
      rw [tickSends_cons, if_pos hat, tickSends_nil, List.append_nil]; exact List.length_pos.2 ha
    have b₁ := (hsched u (p :: v ++ a :: r) (by rw [hsplit]; simp)).1.bounds.1
      (by rw [hu, List.length_replicate]; omega)
    have b₂ := (hsched (u ++ [p]) (v ++ a :: r) (by rw [hsplit]; simp)).1.bounds.2.1 hpl.ge
    have b₃ := (hsched (u ++ [p] ++ v) (a :: r) (by rw [hsplit]; simp)).1.bounds.2.2.1
      (by rw [hvl, hpl])
    have b₄ := (hsched (u ++ [p] ++ v ++ [a]) r (by rw [hsplit]; simp)).1.bounds.2.2.2
      (by rw [tickSends_append, hvl, List.length_append, hpl]; omega)
    have h0' := announceTime_zero cfg e.post.ttw (tickRand (ys ++ [f]))
    simp only [ticks_append, ticks_cons, ticks_nil, if_pos hpt, if_pos hat] at b₂ b₃ b₄
    omega
  · -- (c) no probe conflict while probing
    obtain ⟨ys₁, ys₂, rfl⟩ := List.append_of_mem hst
    have hspl : ys₁ ++ st :: ys₂ ++ [f] = ys₁ ++ st :: (ys₂ ++ [f]) := by simp
    obtain ⟨-, hip₁, -⟩ := hsched ys₁ _ hspl
    have hpre := exec_cons_pre cfg (exec_eq_append cfg (hyf.symm.trans hspl)).2
    obtain ⟨-, hpst⟩ := mem_contextTrace_step cfg (by rw [htr]; simp : st ∈ contextTrace cfg q s evs)
    have hti : st.input.isTmr = false := by rw [hin]; rfl
    rcases (acdStep_other cfg st.pre hti (hys st (by simp))).2 with hd | ⟨-, -, -, hno⟩
    · exact hlive st (by simp) (hpst ▸ hd)
    · exact hno m hdr hin hpp (by rw [hpre, hip₁]; exact hc)

end AcdEngine
