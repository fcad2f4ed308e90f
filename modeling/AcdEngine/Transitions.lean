import AcdEngine.Classify
/-!
# Which state a call can move a context to

`Edge` is the spec's transition table, by entry point. Every call moves a
context along one of its edges, provided the context keeps `CountersReset`:
nothing announced yet in `ANNOUNCE_WAIT`, and no conflict counted once the
address is in use. Every context keeps it from its zeroed start, so with
`MAX_CONFLICTS ≥ 2` an address in use never goes to `RATE_LIMIT`.

- `state_transition_graph`: every state change in every run is an edge.
- `exec_rateLimit`: a `RATE_LIMIT` run that is not stopped, started again or
  demoted is silent and ends on its last tick with one `RESTART_CLIENT`.
-/

namespace AcdEngine

/-- The state changes the spec's transition table allows, by entry point.
`acdStop` is both `acd_stop` and `acd_network_changed_link_down`. -/
def Edge : Input → AcdState → AcdState → Prop
  | .acdStart _ _, _, t => t = .probeWait
  | .acdStop, _, t => t = .off
  | .acdTmr _, s, t =>
    (s = .probeWait ∧ t = .probing) ∨ ((s = .probeWait ∨ s = .probing) ∧ t = .announceWait) ∨
      (s = .announceWait ∧ t = .announcing) ∨
      ((s = .announceWait ∨ s = .announcing) ∧ t = .ongoing) ∨ (s = .rateLimit ∧ t = .off)
  | .acdArpReply _ _, s, t =>
    (s.IsProbePhase ∧ (t = .off ∨ t = .rateLimit)) ∨ (s.IsInUse ∧ t = .off)
  | .ipAddrChanged _ _, s, t =>
    ((s = .announcing ∨ s = .ongoing) ∧ t = .passiveOngoing) ∨
      ((s.IsProbePhase ∨ s = .rateLimit) ∧ t = .off)

/-- A call that leaves `RATE_LIMIT` running for address `ip`: a tick, a
frame, or an address change that does not demote `ip`. -/
def KeepsRateLimit (ip : Ip4Addr) : Input → Prop
  | .acdTmr _ | .acdArpReply _ _ => True
  | .ipAddrChanged old new => ¬ (Demotes old new ∧ ip = old)
  | .acdStart _ _ | .acdStop => False

/-- What every context keeps: nothing is announced yet in `ANNOUNCE_WAIT`,
and the conflict count was cleared when the address went into use. -/
structure CountersReset (a : Acd) : Prop where
  announceWait_sentNum : a.state = .announceWait → a.sentNum = 0
  inUse_numConflicts : a.state.IsInUse → a.numConflicts = 0

variable (cfg : Config)

theorem countersReset_zero : CountersReset Acd.zero :=
  ⟨by simp [Acd.zero], by simp [Acd.zero, AcdState.IsInUse]⟩

theorem countersReset_tmr {a : Acd} (h : CountersReset a) (rand : Nat) :
    CountersReset (acdTmrEntry cfg rand a).1 := by
  obtain ⟨h1, h2⟩ := h
  -- in the announce phase a nonzero `sent_num` means `ANNOUNCING`, whose count is clear
  have hann : a.state = .announceWait ∨ a.state = .announcing → a.sentNum ≠ 0 →
      a.state = .announcing ∧ a.numConflicts = 0 := fun hs hz => by
    rcases hs with hs | hs
    · exact absurd (h1 hs) hz
    · exact ⟨hs, h2 (.inl hs)⟩
  rcases acdTmrEntry_cases rand a with he | ⟨-, -, -, he⟩ | ⟨-, -, -, he⟩ | ⟨hs, -, -, he⟩ |
    ⟨hs, -, -, he⟩ | ⟨-, -, -, he⟩ | ⟨-, -, he⟩ <;> rw [he]
  · exact ⟨by simpa using h1, by simpa using h2⟩
  · exact ⟨by simp, by simp [AcdState.IsInUse]⟩
  · exact ⟨by simp, by simp [AcdState.IsInUse]⟩
  · by_cases hz : a.sentNum = 0
    · exact ⟨by simp [hz], by simp [hz]⟩
    · obtain ⟨hs, hn⟩ := hann hs hz
      exact ⟨by simp [hz, hs], by simp [hz, hn]⟩
  · by_cases hz : a.sentNum = 0
    · exact ⟨by simp, by simp [hz]⟩
    · exact ⟨by simp, by simp [hz, (hann hs hz).2]⟩
  · exact ⟨by simpa using h1, by simpa using h2⟩
  · exact ⟨by simp, by simp [AcdState.IsInUse]⟩

theorem acdRestart_state (a : Acd) :
    (acdRestart cfg a).1.state = .rateLimit ∨ (acdRestart cfg a).1.state = .off := by
  unfold acdRestart; dsimp only; split_ifs <;> simp [acdStop]

theorem countersReset_of_quiet {a : Acd} (h : a.state = .rateLimit ∨ a.state = .off) :
    CountersReset a :=
  ⟨fun h' => by rcases h with h | h <;> simp [h] at h',
    fun h' => by rcases h with h | h <;> simp [h, AcdState.IsInUse] at h'⟩

theorem countersReset_arp {a : Acd} (h : CountersReset a) (m : EthAddr) (hdr : EtharpHdr) :
    CountersReset (acdArpReplyEntry cfg m hdr a).1 := by
  rw [acdArpReplyEntry_eq]
  split_ifs
  · exact countersReset_of_quiet (acdRestart_state cfg a)
  · unfold acdHandleArpConflict
    split_ifs
    · exact countersReset_of_quiet (.inr rfl)
    · exact countersReset_of_quiet (acdRestart_state cfg a)
    · exact ⟨h.1, h.2⟩
  · exact h

theorem countersReset_step {a : Acd} (h : CountersReset a) (i : Input) :
    CountersReset (acdStep cfg a i).1 := by
  cases i with
  | acdStart rand ipaddr => exact ⟨by simp [acdStep], by simp [acdStep, AcdState.IsInUse]⟩
  | acdStop => exact countersReset_of_quiet (.inr rfl)
  | acdTmr rand => exact countersReset_tmr cfg h rand
  | acdArpReply m hdr => exact countersReset_arp cfg h m hdr
  | ipAddrChanged old new =>
    rw [acdStep_ipAddrChanged]
    split_ifs
    · unfold acdPutInPassiveMode
      cases hs : a.state <;> simp only [hs]
      all_goals first
        | exact h
        | exact countersReset_of_quiet (.inr rfl)
        | exact ⟨by simp, fun _ => h.2 (by simp [hs, AcdState.IsInUse])⟩
    · exact h

/-- A tick moves a context along a tick edge, or leaves its state. -/
theorem acdTmrEntry_edge (a : Acd) (rand : Nat) :
    (acdTmrEntry cfg rand a).1.state = a.state ∨
      Edge (.acdTmr rand) a.state (acdTmrEntry cfg rand a).1.state := by
  rcases acdTmrEntry_cases rand a with he | ⟨hs, -, -, he⟩ | ⟨hs, -, -, he⟩ | ⟨hs, -, -, he⟩ |
    ⟨hs, -, -, he⟩ | ⟨-, -, -, he⟩ | ⟨hs, -, he⟩ <;> rw [he]
  · simp
  · rcases hs with hs | hs <;> simp [hs, Edge]
  · simp [hs, Edge]
  · split_ifs <;> rcases hs with hs | hs <;> simp [hs, Edge]
  · simp [hs, Edge]
  · simp
  · simp [hs, Edge]

/-- With `MAX_CONFLICTS ≥ 2`, every call moves a context that keeps
`CountersReset` along an edge of its entry point, or leaves its state. -/
theorem acdStep_edge (hmax : 2 ≤ cfg.maxConflicts) {a : Acd} (h : CountersReset a)
    (i : Input) : (acdStep cfg a i).1.state = a.state ∨ Edge i a.state (acdStep cfg a i).1.state := by
  cases i with
  | acdStart rand ipaddr => exact .inr rfl
  | acdStop => exact .inr rfl
  | acdTmr rand => exact acdTmrEntry_edge cfg a rand
  | acdArpReply m hdr =>
    simp only [acdStep, acdArpReplyEntry_eq]
    split_ifs with hp hu
    · exact .inr (.inl ⟨hp.1, acdRestart_state cfg a |>.symm⟩)
    · have hn : a.numConflicts = 0 := h.2 hu.1
      have hoff : (acdRestart cfg a).1.state = .off := by
        rw [((acdRestart_restarted cfg a).2 (by simp [hn]; omega)).1]
      unfold acdHandleArpConflict
      split_ifs
      · exact .inr (.inr ⟨hu.1, rfl⟩)
      · exact .inr (.inr ⟨hu.1, hoff⟩)
      · exact .inl rfl
    · exact .inl rfl
  | ipAddrChanged old new =>
    rw [acdStep_ipAddrChanged]
    split_ifs
    · unfold acdPutInPassiveMode
      cases hs : a.state <;> simp [hs, acdStop, Edge, AcdState.IsProbePhase]
    · exact .inl rfl

/-- State-transition graph: in every run from fresh contexts, a call that
changes a context's state moves it along an edge of the spec's table for its
entry point. -/
theorem state_transition_graph (hmax : 2 ≤ cfg.maxConflicts) (s : Stack) (evs : List Event)
    (q : Nat) :
    ∀ st ∈ contextTrace cfg q { s with acds := fun _ => Acd.zero } evs,
      st.post.state ≠ st.pre.state → Edge st.input st.pre.state st.post.state := by
  intro st hst hne
  obtain ⟨hinv, -, hpost⟩ := @mem_contextTrace cfg CountersReset
    (fun _ i h => countersReset_step cfg h i) q _ evs countersReset_zero st hst
  rw [hpost] at hne ⊢
  exact (acdStep_edge cfg hmax hinv st.input).resolve_left hne

/-- The start, the first probe's tick and the conflict of `probeConflictRun` are
three edges: `OFF` to `PROBE_WAIT`, on to `PROBING`, and back to `OFF`. -/
theorem state_transition_graph_specConfig :
    2 ≤ specConfig.maxConflicts ∧
      (∀ st ∈ contextTrace specConfig 0 { soloStack with acds := fun _ => Acd.zero } probeConflictRun,
        st.post.state ≠ st.pre.state → Edge st.input st.pre.state st.post.state) ∧
      (contextTrace specConfig 0 { soloStack with acds := fun _ => Acd.zero } probeConflictRun).map
        (fun st => (st.pre.state, st.post.state)) =
        [(.off, .probeWait), (.probeWait, .probing), (.probing, .off)] :=
  ⟨by decide, state_transition_graph specConfig (by decide) soloStack probeConflictRun 0, by decide⟩

/-! ## Quiet states -/

theorem off_step {a : Acd} (h : a.state = .off) (i : Input) (hi : i.isStart = false) :
    (acdStep cfg a i).2 = [] ∧ (acdStep cfg a i).1.state = .off := by
  cases i with
  | acdStart rand ipaddr => simp [Input.isStart] at hi
  | acdStop => simp [acdStep]
  | acdTmr rand => simp [acdStep, acdTmrEntry_quiet rand (.inl h), h]
  | acdArpReply m hdr =>
    simp [acdStep, acdArpReplyEntry_eq, h, AcdState.IsProbePhase, AcdState.IsInUse]
  | ipAddrChanged old new =>
    rw [acdStep_ipAddrChanged]; split_ifs <;> simp [acdPutInPassiveMode, h]

theorem rateLimit_arp {a : Acd} (h : a.state = .rateLimit) (m : EthAddr) (hdr : EtharpHdr) :
    acdStep cfg a (.acdArpReply m hdr) = (a, []) := by
  simp [acdStep, acdArpReplyEntry_eq, h, AcdState.IsProbePhase, AcdState.IsInUse]

theorem rateLimit_silent {a : Acd} (h : a.state = .rateLimit) (i : Input) :
    ∀ x ∈ (acdStep cfg a i).2, x.isSend = false := by
  cases i with
  | acdTmr rand =>
    simp only [acdStep, acdTmrEntry_rateLimit rand h]; split_ifs <;> simp
  | acdArpReply m hdr => simp [rateLimit_arp cfg h]
  | ipAddrChanged old new =>
    rw [acdStep_ipAddrChanged]; split_ifs <;> simp [acdPutInPassiveMode, h]
  | acdStart | acdStop => simp [acdStep]

theorem passive_silent {a : Acd} (h : a.state = .passiveOngoing) (i : Input) :
    ∀ x ∈ (acdStep cfg a i).2, x.isSend = false := by
  cases i with
  | acdTmr rand => simp [acdStep, acdTmrEntry_quiet rand (.inr h)]
  | acdArpReply m hdr =>
    have hnp : ¬ a.state.IsProbePhase := by simp [h, AcdState.IsProbePhase]
    simp only [acdStep, acdArpReplyEntry_eq, hnp, false_and, if_false]
    split_ifs
    · simp [recordConflict, acdHandleArpConflict, h]
    · simp
  | ipAddrChanged old new =>
    rw [acdStep_ipAddrChanged]; split_ifs <;> simp [acdPutInPassiveMode, h]
  | acdStart | acdStop => simp [acdStep]

/-- One call in `RATE_LIMIT` before its last tick: silent, and only the
wait moves. -/
theorem rateLimit_keep {b : Acd} (hb : b.state = .rateLimit) {i : Input}
    (hk : KeepsRateLimit b.ipaddr i) (ht : i.isTmr → 2 ≤ b.ttw) :
    (acdStep cfg b i).2 = [] ∧ (acdStep cfg b i).1.state = .rateLimit ∧
      (acdStep cfg b i).1.ipaddr = b.ipaddr ∧
      (acdStep cfg b i).1.ttw = if i.isTmr then b.ttw - 1 else b.ttw := by
  cases i with
  | acdStart | acdStop => exact hk.elim
  | acdTmr rand =>
    have : ¬ b.ttw ≤ 1 := by simp only [Input.isTmr, forall_const] at ht; omega
    simp [acdStep, acdTmrEntry_rateLimit rand hb, this, hb, Input.isTmr]
  | acdArpReply m hdr => simp [rateLimit_arp cfg hb, hb, Input.isTmr]
  | ipAddrChanged old new => simp [acdStep_ipAddrChanged, if_neg hk, hb, Input.isTmr]

/-- A `RATE_LIMIT` run that is not stopped, started again or demoted stays
silent until the tick that finds its wait over, which stops the context with
one `RESTART_CLIENT`. -/
theorem exec_rateLimit {b : Acd} {is : List Input} {ys zs : List Step} {t : Step}
    (h : exec cfg b is = ys ++ t :: zs) (hb : b.state = .rateLimit)
    (hk : ∀ st ∈ ys ++ [t], KeepsRateLimit b.ipaddr st.input) (ht : t.input.isTmr)
    (hn : ticks ys + 1 = max b.ttw 1) :
    (∀ st ∈ ys, st.post.state = .rateLimit ∧ st.out = []) ∧
      t.out = [.callback .restartClient] ∧ t.post.state = .off := by
  induction ys generalizing b is with
  | nil =>
    cases is with
    | nil => cases h
    | cons i is =>
      obtain ⟨rfl, -⟩ := List.cons.inj h
      cases i <;> simp only [Input.isTmr, Bool.false_eq_true] at ht
      have : b.ttw ≤ 1 := by rw [ticks_nil] at hn; omega
      simp [acdStep, acdTmrEntry_rateLimit _ hb, this]
  | cons st ys ih =>
    cases is with
    | nil => cases h
    | cons i is =>
      obtain ⟨rfl, hrest⟩ := List.cons.inj h
      simp only [ticks_cons] at hn
      have hki : KeepsRateLimit b.ipaddr i := hk _ (List.mem_cons_self _ _)
      have htt : i.isTmr → 2 ≤ b.ttw := fun hi => by simp only [hi, if_true] at hn; omega
      obtain ⟨hout, hst, hip, httw⟩ := rateLimit_keep cfg hb hki htt
      have hn' : ticks ys + 1 = max (acdStep cfg b i).1.ttw 1 := by
        rw [httw]
        cases hi : i.isTmr <;> simp only [hi, if_true, if_false, Bool.false_eq_true] at hn ⊢ <;> omega
      obtain ⟨hys, ht'⟩ := ih hrest hst (fun st hs => hip ▸ hk st (List.mem_cons_of_mem _ hs)) hn'
      exact ⟨List.forall_mem_cons.2 ⟨⟨hst, hout⟩, hys⟩, ht'⟩

end AcdEngine
