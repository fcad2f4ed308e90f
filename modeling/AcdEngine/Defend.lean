import AcdEngine.Callbacks
/-!
# The defend window

RFC 5227 §2.4 option b: a context whose address is in use defends it once
against a conflicting frame, and gives it up on a second conflict within
`DEFEND_INTERVAL`. `lastconflict` is the window: `acd_handle_arp_conflict`
sets it to `DEFEND_INTERVAL * ACD_TICKS_PER_SECOND` when it defends, and each
`acd_tmr` counts it down. `defendClock` is that rule read off the steps of a
run, and along every epoch the code keeps `lastconflict` equal to it
(`exec_pre_lastconflict`).

- `defend_window`: within an epoch, two defences are at least `DEFEND_TICKS`
  ticks apart; a conflict in `ANNOUNCING` or `ONGOING` restarts the context if
  it comes fewer than `DEFEND_TICKS` ticks after the last defence, and is
  defended with exactly one announce otherwise.
-/

namespace AcdEngine

/-- The call answered an ARP frame with an announce: a defence. -/
def Step.defends (st : Step) : Bool :=
  match st.input with
  | .acdArpReply _ _ => st.out.any Action.isSend
  | _ => false

variable (cfg : Config)

/-- `lastconflict` after the steps, from `v`: `DEFEND_TICKS` after a
defence, one less on each tick. -/
def defendClock (v : Nat) : List Step → Nat
  | [] => v
  | st :: tr =>
    defendClock (if st.defends then cfg.defendTicks else if st.input.isTmr then v - 1 else v) tr

/-! ## The clock -/

theorem defendClock_append (v : Nat) (xs ys : List Step) :
    defendClock cfg v (xs ++ ys) = defendClock cfg (defendClock cfg v xs) ys := by
  induction xs generalizing v with
  | nil => rfl
  | cons st xs ih => exact ih _

/-- Without a defence the clock only counts ticks down. -/
theorem defendClock_quiet (v : Nat) {tr : List Step} (h : ∀ st ∈ tr, st.defends = false) :
    defendClock cfg v tr = v - ticks tr := by
  induction tr generalizing v with
  | nil => rfl
  | cons st tr ih =>
    rw [defendClock, if_neg (by simp [h st (List.mem_cons_self _ _)]),
      ih _ (fun st' hs => h st' (List.mem_cons_of_mem _ hs))]
    by_cases ht : st.input.isTmr
    · simp [ht, ticks, List.countP_cons]; omega
    · simp [ht, ticks, List.countP_cons]

/-- A defence only restarts the window, so it never closes before its ticks. -/
theorem defendClock_ge {v : Nat} (hv : v ≤ cfg.defendTicks) (tr : List Step) :
    v - ticks tr ≤ defendClock cfg v tr := by
  induction tr generalizing v with
  | nil => simp [ticks, defendClock]
  | cons st tr ih =>
    rw [defendClock]
    have hc : ticks tr ≤ ticks (st :: tr) := by simp [ticks, List.countP_cons]
    split_ifs with hd ht
    · have := ih (le_refl _); omega
    · have := ih (v := v - 1) (by omega)
      have : ticks (st :: tr) = ticks tr + 1 := by simp [ticks, List.countP_cons, ht]
      omega
    · have := ih hv
      have : ticks (st :: tr) = ticks tr := by simp [ticks, List.countP_cons, ht]
      omega

/-! ## One call -/

theorem acdRestart_out (a : Acd) :
    (acdRestart cfg a).2 = [.callback .decline] ∨
      (acdRestart cfg a).2 = [.callback .decline, .callback .restartClient] := by
  unfold acdRestart; dsimp only; split_ifs <;> simp

theorem acdRestart_silent (a : Acd) : (acdRestart cfg a).2.any Action.isSend = false := by
  rcases acdRestart_out cfg a with h | h <;> simp [h]

/-- A frame conflicting with an address in use and not yet given up restarts
the context inside the window, and is defended outside it. -/
theorem acdStep_inUse_conflict {a : Acd} (hs : a.state = .announcing ∨ a.state = .ongoing)
    {m : EthAddr} {hdr : EtharpHdr} (hc : OngoingConflict m hdr a.ipaddr) :
    acdStep cfg a (.acdArpReply m hdr) =
      if 0 < a.lastconflict then ((acdRestart cfg a).1, recordConflict hdr ++ (acdRestart cfg a).2)
      else ({ a with lastconflict := cfg.defendTicks },
        recordConflict hdr ++ [.etharpAcdAnnounce a.ipaddr]) := by
  have hu : a.state.IsInUse := by rcases hs with hs | hs <;> simp [hs, AcdState.IsInUse]
  have hnp : ¬ a.state.IsProbePhase := fun h => h.not_inUse hu
  have hnpass : a.state ≠ .passiveOngoing := by rcases hs with hs | hs <;> simp [hs]
  simp only [acdStep, acdArpReplyEntry_eq, hnp, hu, hc, false_and, and_self, if_false, if_true,
    acdHandleArpConflict, hnpass, gt_iff_lt]
  split_ifs <;> rfl

/-- What a call other than `acd_start` does to `lastconflict`: `defendClock`'s
rule. -/
theorem acdStep_lastconflict (a : Acd) {i : Input} (hi : i.isStart = false) :
    (acdStep cfg a i).1.lastconflict =
      if (Step.mk a i (acdStep cfg a i).2 (acdStep cfg a i).1).defends then cfg.defendTicks
      else if i.isTmr then a.lastconflict - 1 else a.lastconflict := by
  cases i with
  | acdStart => simp [Input.isStart] at hi
  | acdStop => simp [acdStep, acdStop, Step.defends, Input.isTmr]
  | acdTmr rand => simp [acdStep, Step.defends, Input.isTmr]
  | acdArpReply m hdr =>
    simp only [acdStep, Step.defends, Input.isTmr, acdArpReplyEntry_eq]
    by_cases hp : a.state.IsProbePhase ∧ ProbeConflict m hdr a.ipaddr
    · simp [if_pos hp, recordConflict, acdRestart_silent]
    by_cases hu : a.state.IsInUse ∧ OngoingConflict m hdr a.ipaddr
    · rw [if_neg hp, if_pos hu]
      unfold acdHandleArpConflict
      split_ifs <;> simp_all [recordConflict, acdRestart_silent, acdStop]
    · simp [if_neg hp, if_neg hu]
  | ipAddrChanged old new =>
    simp only [Step.defends, Input.isTmr, Bool.false_eq_true, if_false]
    rw [acdStep_ipAddrChanged]
    split_ifs <;> simp

/-- A defence happens only with the window closed. -/
theorem defends_lastconflict {a : Acd} {i : Input}
    (h : (Step.mk a i (acdStep cfg a i).2 (acdStep cfg a i).1).defends) : a.lastconflict = 0 := by
  cases i with
  | acdArpReply m hdr =>
    simp only [acdStep, Step.defends, acdArpReplyEntry_eq] at h
    by_cases hp : a.state.IsProbePhase ∧ ProbeConflict m hdr a.ipaddr
    · simp [if_pos hp, recordConflict, acdRestart_silent] at h
    by_cases hu : a.state.IsInUse ∧ OngoingConflict m hdr a.ipaddr
    · rw [if_neg hp, if_pos hu] at h
      unfold acdHandleArpConflict at h
      split_ifs at h <;> simp_all [recordConflict, acdRestart_silent]
    · simp [if_neg hp, if_neg hu] at h
  | _ => simp [Step.defends] at h

/-! ## Runs -/

theorem execPost_lastconflict :
    ∀ (a : Acd) (is : List Input), (∀ i ∈ is, i.isStart = false) →
      (execPost cfg a is).lastconflict = defendClock cfg a.lastconflict (exec cfg a is)
  | a, [], _ => rfl
  | a, i :: is, hs => by
    have ih := execPost_lastconflict (acdStep cfg a i).1 is
      (fun j hj => hs j (List.mem_cons_of_mem _ hj))
    rw [acdStep_lastconflict cfg a (hs i (List.mem_cons_self _ _))] at ih
    exact ih

/-- Along a run without `acd_start`, `lastconflict` before each call is
`defendClock` of the calls before it. -/
theorem exec_pre_lastconflict {a : Acd} {is : List Input} (hs : ∀ i ∈ is, i.isStart = false)
    {ys₁ ys₂ : List Step} {f : Step} (h : exec cfg a is = ys₁ ++ f :: ys₂) :
    f.pre.lastconflict = defendClock cfg a.lastconflict ys₁ := by
  obtain ⟨h1, h2⟩ := exec_eq_append cfg h
  have his : is = ys₁.map Step.input ++ (f :: ys₂).map Step.input := by
    rw [← List.map_append, ← h, exec_map_input]
  rw [exec_cons_pre cfg h2, execPost_lastconflict cfg a _ (fun i hi => hs i (by simp [his, hi])),
    ← h1]

/-- The defend window over one context's part of a run (RFC 5227 §2.4
option b): within each epoch, two defences are at least `DEFEND_TICKS` ticks
apart; a conflicting frame in `ANNOUNCING` or `ONGOING` restarts the context
when it comes fewer than `DEFEND_TICKS` ticks after the epoch's last defence,
and otherwise, after the two diagnostic hooks, is defended with exactly one
announce and no callback. -/
def DefendWindow (tr : List Step) : Prop :=
  ∀ xs e ys zs, tr = xs ++ e :: ys ++ zs → e.input.isStart →
    (∀ st ∈ ys, st.input.isStart = false) →
    (∀ ys₁ d₁ ys₂ d₂ ys₃, ys = ys₁ ++ d₁ :: ys₂ ++ d₂ :: ys₃ → d₁.defends → d₂.defends →
      cfg.defendTicks ≤ ticks ys₂) ∧
    ∀ ys₁ f ys₂ m hdr, ys = ys₁ ++ f :: ys₂ → f.input = .acdArpReply m hdr →
      OngoingConflict m hdr f.pre.ipaddr → f.pre.state = .announcing ∨ f.pre.state = .ongoing →
      ((∃ ys₁' d ys₁'', ys₁ = ys₁' ++ d :: ys₁'' ∧ d.defends ∧
          (∀ d' ∈ ys₁'', d'.defends = false) ∧ ticks ys₁'' < cfg.defendTicks) →
        f.post = (acdRestart cfg f.pre).1 ∧ .decline ∈ callbacksOf f.out ∧
          ∀ x ∈ f.out, x.isSend = false) ∧
      ((∀ d ∈ ys₁, d.defends = false) ∨
        (∃ ys₁' d ys₁'', ys₁ = ys₁' ++ d :: ys₁'' ∧ d.defends ∧
          (∀ d' ∈ ys₁'', d'.defends = false) ∧ cfg.defendTicks ≤ ticks ys₁'') →
        f.out = [.cipTcpIpSetLastAcdMac hdr.shwaddr, .cipTcpIpSetLastAcdRawData hdr,
          .etharpAcdAnnounce f.pre.ipaddr] ∧
          f.post = { f.pre with lastconflict := cfg.defendTicks })

/-- Defend window: every context keeps `DefendWindow` in every run. -/
theorem defend_window (s : Stack) (evs : List Event) (q : Nat) :
    DefendWindow cfg (contextTrace cfg q s evs) := by
  intro xs e ys zs h he hs
  rw [List.append_assoc, List.cons_append] at h
  obtain ⟨-, hpost, hrest⟩ := contextTrace_eq_append_cons cfg h
  have hys := (exec_eq_append cfg hrest.symm).1
  have hlc0 : e.post.lastconflict = 0 := by
    rw [hpost]
    cases hi : e.input with
    | acdStart => rfl
    | _ => simp [hi, Input.isStart] at he
  have hmap : ∀ i ∈ ys.map Step.input, i.isStart = false := by simpa using hs
  have key : ∀ ys₁ f ys₂, ys = ys₁ ++ f :: ys₂ → f.pre.lastconflict = defendClock cfg 0 ys₁ :=
    fun ys₁ f ys₂ hsplit => hlc0 ▸ exec_pre_lastconflict cfg hmap (hys.symm.trans hsplit)
  have hstep : ∀ st ∈ ys, st.out = (acdStep cfg st.pre st.input).2 ∧
      st.post = (acdStep cfg st.pre st.input).1 :=
    fun st hst => mem_contextTrace_step cfg (by rw [h]; simp [hst])
  refine ⟨fun ys₁ d₁ ys₂ d₂ ys₃ hsplit h1 h2 => ?_,
    fun ys₁ f ys₂ m hdr hsplit hi hc hst => ?_⟩
  · have hd₂ := key (ys₁ ++ d₁ :: ys₂) d₂ ys₃ (by simp [hsplit])
    have hmem : d₂ ∈ ys := by rw [hsplit]; simp
    have h0 : d₂.pre.lastconflict = 0 := by
      obtain ⟨ho, hp⟩ := hstep d₂ hmem
      have hd : (Step.mk d₂.pre d₂.input (acdStep cfg d₂.pre d₂.input).2
          (acdStep cfg d₂.pre d₂.input).1).defends := by rw [← ho, ← hp]; exact h2
      exact defends_lastconflict cfg hd
    rw [defendClock_append, defendClock, if_pos h1] at hd₂
    have := defendClock_ge cfg (le_refl _) ys₂
    omega
  · obtain ⟨ho, hp⟩ := hstep f (by rw [hsplit]; simp)
    have hlc := key ys₁ f ys₂ hsplit
    have hreact := acdStep_inUse_conflict cfg hst hc
    rw [← hi] at hreact
    rw [ho, hp, hreact]
    refine ⟨fun ⟨ys₁', d, ys₁'', hsp, hd, hnd, hlt⟩ => ?_, fun hearly => ?_⟩
    · rw [hsp, defendClock_append, defendClock, if_pos hd, defendClock_quiet cfg _ hnd] at hlc
      rw [if_pos (by omega)]
      refine ⟨rfl, ?_, ?_⟩ <;> rcases acdRestart_out cfg f.pre with hr | hr <;>
        simp [hr, callbacksOf, recordConflict]
    · have hz : f.pre.lastconflict = 0 := by
        rcases hearly with hnd | ⟨ys₁', d, ys₁'', hsp, hd, hnd, hge⟩
        · rw [hlc, defendClock_quiet cfg _ hnd]; simp
        · rw [hlc, hsp, defendClock_append, defendClock, if_pos hd, defendClock_quiet cfg _ hnd]
          omega
      rw [if_neg (by omega)]
      exact ⟨rfl, rfl⟩

end AcdEngine
