import AcdEngine.Schedule
/-!
# The frames of an epoch

RFC 5227 asks a host to probe an address before it announces it (§2.1, §2.3), and to
announce it before it defends it. Here the frames one context sends between an
`acd_start` and the next are shown to keep one shape (`WireShape`): at most `P` probes
for the address, announces only once the `P`-th probe went out, and anything more (the
periodic defence probes of `ONGOING`, the announces that defend the address) only once
at least `A` announces followed the probes. Every frame is for the address `acd_start`
gave.

`WireInv` says, state by state, how far into that shape the frames so far are: the
probes counted by `sent_num` while probing, all `P` of them from `ANNOUNCE_WAIT` on, at
least `sent_num` announces after them while announcing, and at least `A` in `ONGOING`.
Every call but `acd_start` keeps it (`wireInv_step`), and so does every run of an epoch
(`wireInv_exec`).

- `epoch_frames`: with `PROBE_NUM` in the range of `sent_num`, at every point of every
  epoch of every context in every run, the frames the epoch sent so far have that shape.
- `silent_after_decline`: once a context declines its address, it sends no frame until
  the next `acd_start`.
-/

namespace AcdEngine

variable (cfg : Config)

/-- The frames of an epoch for address `ip`: `p ≤ P` probes, `k` announces, then probes
and announces for `ip`; an announce only after the `P`-th probe, and the rest only after
at least `A` announces. -/
def WireShape (ip : Ip4Addr) (ss : List Action) : Prop :=
  ∃ p k T, ss = List.replicate p (.etharpAcdProbe ip) ++ List.replicate k (.etharpAcdAnnounce ip) ++ T ∧
    p ≤ probeCount cfg ∧ (0 < k → p = probeCount cfg) ∧
    (T ≠ [] → p = probeCount cfg ∧ announceCount cfg ≤ k) ∧
    ∀ x ∈ T, x = .etharpAcdProbe ip ∨ x = .etharpAcdAnnounce ip

/-- How far into `WireShape` the frames `ss` of the epoch are, by the state of the
context. -/
def WireInv (a : Acd) (ss : List Action) : Prop :=
  match a.state with
  | .probeWait | .probing =>
    ss = List.replicate a.sentNum (.etharpAcdProbe a.ipaddr) ∧ a.sentNum < probeCount cfg
  | .announceWait => ss = List.replicate (probeCount cfg) (.etharpAcdProbe a.ipaddr) ∧ a.sentNum = 0
  | .announcing => ∃ k, ss = List.replicate (probeCount cfg) (.etharpAcdProbe a.ipaddr) ++
      List.replicate k (.etharpAcdAnnounce a.ipaddr) ∧ a.sentNum ≤ k
  | .ongoing => ∃ k T, ss = List.replicate (probeCount cfg) (.etharpAcdProbe a.ipaddr) ++
      List.replicate k (.etharpAcdAnnounce a.ipaddr) ++ T ∧ announceCount cfg ≤ k ∧
      ∀ x ∈ T, x = .etharpAcdProbe a.ipaddr ∨ x = .etharpAcdAnnounce a.ipaddr
  | .off | .rateLimit | .passiveOngoing => WireShape cfg a.ipaddr ss

variable {cfg}

/-! ## The invariant and the shape -/

theorem WireInv.shape {a : Acd} {ss : List Action} (h : WireInv cfg a ss) :
    WireShape cfg a.ipaddr ss := by
  unfold WireInv at h
  split at h
  · exact ⟨a.sentNum, 0, [], by simp [h.1], h.2.le, by simp, by simp, by simp⟩
  · exact ⟨a.sentNum, 0, [], by simp [h.1], h.2.le, by simp, by simp, by simp⟩
  · exact ⟨probeCount cfg, 0, [], by simp [h.1], le_rfl, by simp, by simp, by simp⟩
  · obtain ⟨k, hss, -⟩ := h
    exact ⟨probeCount cfg, k, [], by simp [hss], le_rfl, fun _ => rfl, by simp, by simp⟩
  · obtain ⟨k, T, hss, hk, hT⟩ := h
    exact ⟨probeCount cfg, k, T, hss, le_rfl, fun _ => rfl, fun _ => ⟨rfl, hk⟩, hT⟩
  all_goals exact h

/-- A context that stopped, rate-limits or went passive only keeps the shape. -/
theorem wireInv_of_dead {a b : Acd} {ss : List Action} (hb : Dead b) (hip : b.ipaddr = a.ipaddr)
    (h : WireInv cfg a ss) : WireInv cfg b ss := by
  have hs := h.shape
  rw [← hip] at hs
  rcases hb with hb | hb | hb <;> simpa only [WireInv, hb] using hs

/-- The invariant reads only the state, `sent_num` and the address. -/
theorem wireInv_congr {a b : Acd} {ss : List Action} (hs : b.state = a.state)
    (hn : b.sentNum = a.sentNum) (hip : b.ipaddr = a.ipaddr) (h : WireInv cfg a ss) :
    WireInv cfg b ss := by
  simpa only [WireInv, hs, hn, hip] using h

/-- In `ONGOING`, any probe or announce for the address keeps the invariant. -/
theorem WireInv.ongoing_append {a : Acd} {ss : List Action} (hs : a.state = .ongoing)
    (h : WireInv cfg a ss) {x : Action}
    (hx : x = .etharpAcdProbe a.ipaddr ∨ x = .etharpAcdAnnounce a.ipaddr) :
    WireInv cfg a (ss ++ [x]) := by
  simp only [WireInv, hs] at h ⊢
  obtain ⟨k, T, hss, hk, hT⟩ := h
  refine ⟨k, T ++ [x], by rw [hss, List.append_assoc], hk, fun y hy => ?_⟩
  rcases List.mem_append.1 hy with hy | hy
  · exact hT y hy
  · rw [List.mem_singleton.1 hy]; exact hx

/-- An announce that defends an address in use keeps the invariant. -/
theorem wireInv_announce {a : Acd} {ss : List Action} (hs : a.state = .announcing ∨ a.state = .ongoing)
    (h : WireInv cfg a ss) : WireInv cfg a (ss ++ [.etharpAcdAnnounce a.ipaddr]) := by
  rcases hs with hs | hs
  · simp only [WireInv, hs] at h ⊢
    obtain ⟨k, hss, hk⟩ := h
    exact ⟨k + 1, by rw [hss, List.replicate_succ', List.append_assoc], by omega⟩
  · exact h.ongoing_append hs (.inr rfl)

/-- While probing, the frames are the probes `sent_num` counts, and one more fits in `P`. -/
theorem WireInv.probing (hP : cfg.probeNum < 2 ^ 16) {a : Acd} {ss : List Action}
    (hs : a.state = .probeWait ∨ a.state = .probing) (h : WireInv cfg a ss) :
    ss = List.replicate a.sentNum (.etharpAcdProbe a.ipaddr) ∧ a.sentNum + 1 ≤ probeCount cfg ∧
      u16 (a.sentNum + 1) = a.sentNum + 1 := by
  obtain ⟨hss, hlt⟩ : ss = List.replicate a.sentNum (.etharpAcdProbe a.ipaddr) ∧
      a.sentNum < probeCount cfg := by
    rcases hs with hs | hs <;> simpa only [WireInv, hs] using h
  exact ⟨hss, hlt, u16_of_lt (by rw [probeCount] at hlt; omega)⟩

/-- While announcing, the frames are the `P` probes and at least as many announces as
`sent_num` counts; in `ANNOUNCE_WAIT` the count is zero. -/
theorem WireInv.announcing {a : Acd} {ss : List Action}
    (hs : a.state = .announceWait ∨ a.state = .announcing) (h : WireInv cfg a ss) :
    (∃ k, ss = List.replicate (probeCount cfg) (.etharpAcdProbe a.ipaddr) ++
      List.replicate k (.etharpAcdAnnounce a.ipaddr) ∧ a.sentNum ≤ k) ∧
      (a.state = .announcing ∨ a.sentNum = 0) := by
  rcases hs with hs | hs <;> simp only [WireInv, hs] at h
  · exact ⟨⟨0, by simp [h.1], by simp [h.2]⟩, .inr h.2⟩
  · exact ⟨h, .inl hs⟩

/-! ## Each call keeps it -/

theorem acdRestart_sends (a : Acd) : (acdRestart cfg a).2.filter Action.isSend = [] := by
  rcases acdRestart_out cfg a with h | h <;> simp [h]

theorem acdPutInPassiveMode_sends (a : Acd) : (acdPutInPassiveMode a).2.filter Action.isSend = [] := by
  unfold acdPutInPassiveMode; split <;> simp

theorem wireInv_acdStart (rand : Nat) (ip : Ip4Addr) (a : Acd) :
    WireInv cfg (acdStart cfg rand ip a) [] :=
  ⟨rfl, by simp [acdStart, probeCount]⟩

theorem wireInv_acdRestart {a : Acd} {ss : List Action} (h : WireInv cfg a ss) :
    WireInv cfg (acdRestart cfg a).1 (ss ++ (acdRestart cfg a).2.filter Action.isSend) := by
  rw [acdRestart_sends, List.append_nil]
  exact wireInv_of_dead (acdRestart_dead cfg a).1 (acdRestart_ipaddr cfg a) h

theorem wireInv_arp {a : Acd} {ss : List Action} (h : WireInv cfg a ss) (m : EthAddr) (hdr : EtharpHdr) :
    WireInv cfg (acdArpReplyEntry cfg m hdr a).1 (ss ++ (acdArpReplyEntry cfg m hdr a).2.filter Action.isSend) := by
  have hrec : (recordConflict hdr).filter Action.isSend = [] := by simp [recordConflict]
  rw [acdArpReplyEntry_eq]
  split_ifs with _ hu
  · rw [List.filter_append, hrec, List.nil_append]
    exact wireInv_acdRestart h
  · rw [List.filter_append, hrec, List.nil_append]
    unfold acdHandleArpConflict
    split_ifs with hp
    · simpa using wireInv_of_dead (a := a) (b := acdStop a) (.inl rfl) rfl h
    · exact wireInv_acdRestart h
    · -- defended: one announce, only `lastconflict` is set
      have hs : a.state = .announcing ∨ a.state = .ongoing := by
        rcases hu.1 with hs | hs | hs
        · exact .inl hs
        · exact .inr hs
        · exact absurd hs hp
      simpa using wireInv_congr rfl rfl rfl (wireInv_announce hs h)
  · simpa using h

theorem wireInv_ipAddrChanged {a : Acd} {ss : List Action} (h : WireInv cfg a ss) (old new : Ip4Addr) :
    WireInv cfg (acdStep cfg a (.ipAddrChanged old new)).1
      (ss ++ (acdStep cfg a (.ipAddrChanged old new)).2.filter Action.isSend) := by
  rw [acdStep_ipAddrChanged]
  split_ifs
  · rw [acdPutInPassiveMode_sends, List.append_nil]
    exact wireInv_of_dead (acdPutInPassiveMode_dead a).1 (acdPutInPassiveMode_ipaddr a) h
  · simpa using h

/-- A tick keeps the invariant: a probe while probing is counted by `sent_num`, the
`P`-th ends the probes, an announce is counted while announcing, the `A`-th enters
`ONGOING`, and a periodic probe comes after all of them. -/
theorem wireInv_tmr (hP : cfg.probeNum < 2 ^ 16) {a : Acd} {ss : List Action}
    (h : WireInv cfg a ss) (rand : Nat) :
    WireInv cfg (acdTmrEntry cfg rand a).1 (ss ++ (acdTmrEntry cfg rand a).2.filter Action.isSend) := by
  rcases acdTmrEntry_cases rand a with he | ⟨hs, -, hn, he⟩ | ⟨hs, -, hn, he⟩ | ⟨hs, -, -, he⟩ |
      ⟨hs, -, hn, he⟩ | ⟨hs, -, -, he⟩ | ⟨-, -, he⟩ <;> rw [he]
  · -- the countdowns only
    simpa using wireInv_congr (tmrCountdown_state a) (tmrCountdown_sentNum a)
      (tmrCountdown_ipaddr a) h
  · -- another probe
    obtain ⟨hss, hle, hu⟩ := h.probing hP hs
    rw [hu] at hn
    simp only [WireInv, List.filter_cons_of_pos (Action.isSend_etharpAcdProbe _), List.filter_nil,
      hu, tmrCountdown_ipaddr, hss, ← List.replicate_succ', true_and]
    rw [probeCount]; omega
  · -- the `P`-th probe
    obtain ⟨hss, hle, hu⟩ := h.probing hP hs
    have hp : a.sentNum + 1 = probeCount cfg := by rw [hu] at hn; rw [probeCount] at hle ⊢; omega
    simp only [WireInv, List.filter_cons_of_pos (Action.isSend_etharpAcdProbe _), List.filter_nil,
      tmrCountdown_ipaddr, hss, ← List.replicate_succ', hp, and_self]
  · -- another announce, counted in `ANNOUNCING`
    obtain ⟨⟨k, hss, hk⟩, hz⟩ := h.announcing hs
    have hst : (if a.sentNum = 0 then AcdState.announcing else a.state) = .announcing := by
      split_ifs with h0
      · rfl
      · exact hz.resolve_right h0
    simp only [WireInv, hst, List.filter_cons_of_pos (Action.isSend_etharpAcdAnnounce _),
      List.filter_nil, tmrCountdown_ipaddr, hss]
    exact ⟨k + 1, by rw [List.replicate_succ', List.append_assoc], (Nat.mod_le _ _).trans (by omega)⟩
  · -- the `A`-th announce: `ONGOING`
    obtain ⟨⟨k, hss, hk⟩, -⟩ := h.announcing hs
    have hle : u16 (a.sentNum + 1) ≤ a.sentNum + 1 := Nat.mod_le _ _
    simp only [WireInv, List.filter_cons_of_pos (Action.isSend_etharpAcdAnnounce _),
      List.filter_cons_of_neg (by simp : ¬ (Action.callback .ipOk).isSend), List.filter_nil,
      tmrCountdown_ipaddr, hss]
    exact ⟨k + 1, [], by rw [List.replicate_succ', List.append_assoc, List.append_nil],
      by rw [announceCount]; omega, by simp⟩
  · -- the periodic probe
    simp only [List.filter_cons_of_pos (Action.isSend_etharpAcdProbe _), List.filter_nil]
    exact wireInv_congr (tmrCountdown_state a) (tmrCountdown_sentNum a) (tmrCountdown_ipaddr a)
      (h.ongoing_append hs (.inl rfl))
  · -- the end of the rate limit
    simpa using wireInv_of_dead (b := { tmrCountdown a with state := .off }) (.inl rfl)
      (tmrCountdown_ipaddr a) h

/-- Every call but `acd_start` keeps the invariant, with the frames it sends appended. -/
theorem wireInv_step (hP : cfg.probeNum < 2 ^ 16) {a : Acd} {ss : List Action} (h : WireInv cfg a ss) :
    ∀ i : Input, i.isStart = false →
      WireInv cfg (acdStep cfg a i).1 (ss ++ (acdStep cfg a i).2.filter Action.isSend)
  | .acdStop, _ => by
    simpa only [acdStep, List.filter_nil, List.append_nil] using
      wireInv_of_dead (a := a) (b := acdStop a) (.inl rfl) rfl h
  | .acdTmr rand, _ => wireInv_tmr hP h rand
  | .acdArpReply m hdr, _ => wireInv_arp h m hdr
  | .ipAddrChanged old new, _ => wireInv_ipAddrChanged h old new

/-- Along a run with no `acd_start`, the invariant holds of the frames sent so far. -/
theorem wireInv_exec (hP : cfg.probeNum < 2 ^ 16) :
    ∀ {a : Acd} {ss : List Action} (is : List Input), WireInv cfg a ss →
      (∀ i ∈ is, i.isStart = false) → WireInv cfg (execPost cfg a is) (ss ++ sends (exec cfg a is))
  | _, _, [], h, _ => by simpa [exec] using h
  | a, ss, i :: is, h, hs => by
    have := wireInv_exec hP is (wireInv_step hP h i (hs i (List.mem_cons_self _ _)))
      fun j hj => hs j (List.mem_cons_of_mem _ hj)
    simpa [exec, List.append_assoc] using this

/-! ## Every epoch of every run -/

variable (cfg)

/-- The frames of every epoch of a context keep `WireShape`: from an `acd_start` to any
later point before the next, the frames sent have that shape for the address started. -/
def EpochFrames (tr : List Step) : Prop :=
  ∀ xs e ys zs rand ip, tr = xs ++ e :: ys ++ zs → e.input = .acdStart rand ip →
    (∀ st ∈ ys, st.input.isStart = false) → WireShape cfg ip (sends ys)

/-- With `PROBE_NUM` in the range of `sent_num`, every epoch of every context in every run
sends at most `P` probes before anything else, announces only after the `P`-th probe, and
defends (periodic probes, more announces) only after at least `A` announces, all for the
address it started with. -/
theorem epoch_frames (hP : cfg.probeNum < 2 ^ 16) (s : Stack) (evs : List Event) (q : Nat) :
    EpochFrames cfg (contextTrace cfg q s evs) := by
  intro xs e ys zs rand ip htr he hys
  rw [List.append_assoc, List.cons_append] at htr
  obtain ⟨-, hpost, hrest⟩ := contextTrace_eq_append_cons cfg htr
  rw [he, acdStep_acdStart] at hpost
  have hys' := (exec_eq_append cfg hrest.symm).1
  have hst : ∀ i ∈ ys.map Step.input, i.isStart = false := by
    simp only [List.mem_map]; rintro _ ⟨st, h, rfl⟩; exact hys st h
  have h0 : WireInv cfg e.post [] := by rw [hpost]; exact wireInv_acdStart rand ip e.pre
  have h := wireInv_exec hP (ys.map Step.input) h0 hst
  rw [← hys', List.nil_append] at h
  have hip : (execPost cfg e.post (ys.map Step.input)).ipaddr = ip := by
    rw [execPost_ipaddr cfg _ _ hst, hpost]; rfl
  exact hip ▸ h.shape

theorem epoch_frames_specConfig :
    specConfig.probeNum < 2 ^ 16 ∧
      ∀ (s : Stack) (evs : List Event) (q : Nat), EpochFrames specConfig (contextTrace specConfig q s evs) :=
  ⟨by decide, epoch_frames specConfig (by decide)⟩

/-! ## After a decline -/

variable {cfg}

/-- Off the schedule, a context sends nothing. -/
theorem dead_silent {a : Acd} (h : Dead a) {i : Input} (hs : i.isStart = false) :
    (acdStep cfg a i).2.filter Action.isSend = [] := by
  rw [List.filter_eq_nil_iff]
  rcases h with h | h | h
  · simp [(off_step cfg h i hs).1]
  · simpa using rateLimit_silent cfg h i
  · simpa using passive_silent cfg h i

/-- A call that declines takes the context off the schedule and sends nothing. -/
theorem acdStep_decline {a : Acd} {i : Input} (h : .decline ∈ callbacksOf (acdStep cfg a i).2) :
    Dead (acdStep cfg a i).1 ∧ (acdStep cfg a i).2.filter Action.isSend = [] := by
  have hrec (hdr : EtharpHdr) (out : List Action) :
      (recordConflict hdr ++ out).filter Action.isSend = out.filter Action.isSend := by
    simp [recordConflict]
  cases i with
  | acdStart | acdStop => simp [acdStep, callbacksOf] at h
  | acdTmr rand =>
    exfalso
    rcases @acdTmrEntry_cases cfg rand a with he | ⟨-, -, -, he⟩ | ⟨-, -, -, he⟩ | ⟨-, -, -, he⟩ |
      ⟨-, -, -, he⟩ | ⟨-, -, -, he⟩ | ⟨-, -, he⟩ <;> simp [acdStep, he, callbacksOf] at h
  | acdArpReply m hdr =>
    simp only [acdStep, acdArpReplyEntry_eq] at h ⊢
    split_ifs at h ⊢
    · exact ⟨(acdRestart_dead cfg a).1, by rw [hrec, acdRestart_sends]⟩
    · unfold acdHandleArpConflict at h ⊢
      split_ifs at h ⊢
      · exact ⟨.inl rfl, by simp [recordConflict]⟩
      · exact ⟨(acdRestart_dead cfg a).1, by rw [hrec, acdRestart_sends]⟩
      · simp [callbacksOf, recordConflict] at h
    · simp [callbacksOf] at h
  | ipAddrChanged old new =>
    rw [acdStep_ipAddrChanged] at h ⊢
    split_ifs at h ⊢
    · exact ⟨(acdPutInPassiveMode_dead a).1, acdPutInPassiveMode_sends a⟩
    · simp [callbacksOf] at h

/-- Off the schedule and with no `acd_start`, a context sends nothing along a run. -/
theorem sends_exec_dead : ∀ {a : Acd} (is : List Input), Dead a → (∀ i ∈ is, i.isStart = false) →
    sends (exec cfg a is) = []
  | _, [], _, _ => rfl
  | a, i :: is, h, hs => by
    have hi := hs i (List.mem_cons_self _ _)
    rw [exec, sends_cons, dead_silent h hi, List.nil_append]
    exact sends_exec_dead is (acdStep_dead cfg h hi).1 fun j hj => hs j (List.mem_cons_of_mem _ hj)

/-- After a `DECLINE`, the context sends no frame until the next `acd_start`: neither the
call that declines nor any call after it. -/
def SilentAfterDecline (tr : List Step) : Prop :=
  ∀ xs f ys zs, tr = xs ++ f :: ys ++ zs → .decline ∈ callbacksOf f.out →
    (∀ st ∈ ys, st.input.isStart = false) → sends (f :: ys) = []

variable (cfg)

/-- Once a context declines its address (a conflict while probing, a second conflict
within the defend window, a conflict in passive mode, or a demotion before the address was
in use), it sends no probe or announce until the next `acd_start`, in every run. -/
theorem silent_after_decline (s : Stack) (evs : List Event) (q : Nat) :
    SilentAfterDecline (contextTrace cfg q s evs) := by
  intro xs f ys zs htr hd hys
  rw [List.append_assoc, List.cons_append] at htr
  obtain ⟨hout, hpost, hrest⟩ := contextTrace_eq_append_cons cfg htr
  rw [hout] at hd
  obtain ⟨hdead, hsil⟩ := acdStep_decline hd
  have hst : ∀ i ∈ ys.map Step.input, i.isStart = false := by
    simp only [List.mem_map]; rintro _ ⟨st, h, rfl⟩; exact hys st h
  rw [sends_cons, hout, hsil, List.nil_append, (exec_eq_append cfg hrest.symm).1]
  exact sends_exec_dead _ (hpost ▸ hdead) hst

end AcdEngine
