import AcdEngine.Periodic
/-!
# The conflict counter and the quiescent states

`acd_restart` counts conflicts in `num_conflicts`, a `u16_t`, and rate-limits
once the count reaches `MAX_CONFLICTS`; only entering `ANNOUNCING` clears it.
The increment does not saturate. After 65535 restarts without an announced
address the next one wraps the count to 0, and the context is stopped and
told to restart at once, with no `RATE_LIMIT` wait.

- `restart_client_without_rate_limit`: 65535 rounds of `acd_start` and a
  conflicting reply, then one more; the last two `RESTART_CLIENT`s come with
  no tick between them, although the count had long reached `MAX_CONFLICTS`.
- `quiescent_states`: `OFF` is silent and left only by `acd_start`;
  `RATE_LIMIT` is silent, ignores frames and, unless stopped, started again or
  demoted, ends on its last tick with one `RESTART_CLIENT`; `PASSIVE_ONGOING`
  never sends.
- `start_during_rate_limit`: `acd_start` during `RATE_LIMIT` puts the context
  back in `PROBE_WAIT` at once (acd.c sets the state whatever it was), so the
  tick that would have ended the wait finds it elsewhere and no
  `RESTART_CLIENT` comes.
-/

namespace AcdEngine

variable (cfg : Config)

/-- Round `j` as calls into acd.c on `soloStack`: `acd_start`, the
conflicting reply, and, if that restart rate-limits, the ticks that end
`RATE_LIMIT`. -/
def conflictRound (j : Nat) : List Event :=
  [.acdStart 0 linkLocalAddr 0, .acdArpReply 0 conflictHdr] ++
    if cfg.maxConflicts ≤ j + 1 then List.replicate (max cfg.rateLimitTicks 1) (.acdTmr fun _ => 0)
    else []

/-- Rounds `0, …, n - 1`. -/
def conflictRounds : Nat → List Event
  | 0 => []
  | n + 1 => conflictRounds n ++ conflictRound cfg n

/-- What round `j` tells context 0. -/
def roundInputs (j : Nat) : List Input :=
  [.acdStart 0 linkLocalAddr, .acdArpReply localMac conflictHdr] ++
    if cfg.maxConflicts ≤ j + 1 then List.replicate (max cfg.rateLimitTicks 1) (.acdTmr 0) else []

/-- What rounds `0, …, n - 1` tell context 0. -/
def roundsInputs : Nat → List Input
  | 0 => []
  | n + 1 => roundsInputs n ++ roundInputs cfg n

theorem conflictRounds_inputs (n : Nat) :
    (conflictRounds cfg n).filterMap (inputFor soloStack.netifList 0) = roundsInputs cfg n := by
  induction n with
  | zero => rfl
  | succ n ih =>
    have htmr : inputFor soloStack.netifList 0 (.acdTmr fun _ => 0) = some (.acdTmr 0) := by decide
    rw [conflictRounds, roundsInputs, List.filterMap_append, ih, conflictRound, roundInputs,
      List.filterMap_append]
    split_ifs
    · rw [List.filterMap_replicate_of_some htmr]; rfl
    · rfl

/-! ## One round -/

/-- The frame conflicts with a context probing for 169.254.0.1. -/
theorem conflictHdr_restarts {a : Acd} (hs : a.state = .probeWait)
    (hip : a.ipaddr = linkLocalAddr) :
    acdStep cfg a (.acdArpReply localMac conflictHdr) =
      ((acdRestart cfg a).1, recordConflict conflictHdr ++ (acdRestart cfg a).2) := by
  have hc : a.state.IsProbePhase ∧ ProbeConflict localMac conflictHdr a.ipaddr :=
    ⟨.inl hs, by rw [hip]; decide⟩
  simp only [acdStep, acdArpReplyEntry_eq, if_pos hc]

/-- Ticks from `RATE_LIMIT` that outlast its wait, or from `OFF`, end in
`OFF` and leave the count alone. -/
theorem execPost_ticks_off :
    ∀ (n : Nat) (b : Acd), b.state = .off ∨ (b.state = .rateLimit ∧ b.ttw ≤ n + 1) →
      (execPost cfg b (List.replicate (n + 1) (.acdTmr 0))).state = .off ∧
        (execPost cfg b (List.replicate (n + 1) (.acdTmr 0))).numConflicts = b.numConflicts
  | n, b, h => by
    have hstep : (acdStep cfg b (.acdTmr 0)).1.numConflicts = b.numConflicts ∧
        ((acdStep cfg b (.acdTmr 0)).1.state = .off ∨
          ((acdStep cfg b (.acdTmr 0)).1.state = .rateLimit ∧
            (acdStep cfg b (.acdTmr 0)).1.ttw ≤ n ∧ 1 ≤ n)) := by
      rcases h with h | ⟨h, ht⟩
      · simp [acdStep, acdTmrEntry_quiet 0 (.inl h), h]
      · simp only [acdStep, acdTmrEntry_rateLimit 0 h]
        split_ifs
        · simp [h]
        · simp [h]; omega
    obtain ⟨hn, hs⟩ := hstep
    cases n with
    | zero =>
      rcases hs with hs | ⟨-, -, h1⟩
      · exact ⟨hs, hn⟩
      · omega
    | succ n =>
      rw [List.replicate_succ, execPost_cons, ← hn]
      exact execPost_ticks_off n _ (hs.imp_right fun h => ⟨h.1, h.2.1⟩)

/-- After its start and the conflicting reply, a round leaves the context
restarted with one more conflict counted. -/
theorem execPost_round_restart (a : Acd) :
    execPost cfg a [.acdStart 0 linkLocalAddr, .acdArpReply localMac conflictHdr] =
      (acdRestart cfg (acdStart cfg 0 linkLocalAddr a)).1 := by
  show (acdStep cfg (acdStart cfg 0 linkLocalAddr a) _).1 = _
  rw [conflictHdr_restarts cfg rfl rfl]

/-- A round from a context with `j` conflicts counted ends in `OFF` with
`j + 1`. -/
theorem execPost_round (a : Acd) {j : Nat} (hj : j + 1 < 2 ^ 16) (ha : a.numConflicts = j) :
    (execPost cfg a (roundInputs cfg j)).state = .off ∧
      (execPost cfg a (roundInputs cfg j)).numConflicts = j + 1 := by
  have hr := acdRestart_restarted cfg (acdStart cfg 0 linkLocalAddr a)
  have hk : u16 ((acdStart cfg 0 linkLocalAddr a).numConflicts + 1) = j + 1 := by
    simp [acdStart, ha, u16_of_lt hj]
  simp only [Restarted, hk] at hr
  rw [roundInputs, execPost_append, execPost_round_restart]
  split_ifs with hmax
  · obtain ⟨n, hn⟩ : ∃ n, max cfg.rateLimitTicks 1 = n + 1 := ⟨_, (Nat.sub_add_cancel (by omega)).symm⟩
    rw [(hr.1 hmax).1, hn]
    exact execPost_ticks_off cfg n _ (.inr ⟨rfl, by dsimp only; omega⟩)
  · rw [(hr.2 (by omega)).1]
    exact ⟨rfl, rfl⟩

theorem execPost_rounds : ∀ n, n < 2 ^ 16 →
    (execPost cfg Acd.zero (roundsInputs cfg n)).state = .off ∧
      (execPost cfg Acd.zero (roundsInputs cfg n)).numConflicts = n
  | 0, _ => ⟨rfl, rfl⟩
  | n + 1, h => by
    rw [roundsInputs, execPost_append]
    exact execPost_round cfg _ h (execPost_rounds n (by omega)).2

/-- A round that rate-limits ends on the tick that ends `RATE_LIMIT`, which
tells the context to restart. -/
theorem exec_round_last (a : Acd) {j : Nat} (hj : j + 1 < 2 ^ 16) (ha : a.numConflicts = j)
    (hmax : cfg.maxConflicts ≤ j + 1) :
    ∃ ys t, exec cfg a (roundInputs cfg j) = ys ++ [t] ∧ t.out = [.callback .restartClient] := by
  have hr := acdRestart_restarted cfg (acdStart cfg 0 linkLocalAddr a)
  have hk : u16 ((acdStart cfg 0 linkLocalAddr a).numConflicts + 1) = j + 1 := by
    simp [acdStart, ha, u16_of_lt hj]
  simp only [Restarted, hk] at hr
  obtain ⟨hpost, -⟩ := hr.1 hmax
  obtain ⟨n, hn⟩ : ∃ n, max cfg.rateLimitTicks 1 = n + 1 := ⟨_, (Nat.sub_add_cancel (by omega)).symm⟩
  rw [roundInputs, if_pos hmax, hn, exec_append, execPost_round_restart, List.replicate_succ']
  generalize (acdRestart cfg (acdStart cfg 0 linkLocalAddr a)).1 = d at hpost ⊢
  have hkeep : ∀ st ∈ exec cfg d (List.replicate n (.acdTmr 0) ++ [.acdTmr 0]),
      KeepsRateLimit d.ipaddr st.input := by
    intro st hst
    have hin := List.mem_map_of_mem Step.input hst
    rw [exec_map_input] at hin
    simp only [List.mem_append, List.mem_replicate, List.mem_singleton] at hin
    rcases hin with ⟨-, h⟩ | h <;> rw [h] <;> trivial
  rw [exec_append] at hkeep ⊢
  obtain ⟨-, hout, -⟩ := exec_rateLimit cfg (exec_append cfg d (List.replicate n (.acdTmr 0)) [.acdTmr 0])
    (by rw [hpost]) hkeep rfl
    (by rw [ticks_exec, List.countP_replicate, hpost]; simp [Input.isTmr, hn])
  exact ⟨_, _, (List.append_assoc _ _ _).symm, hout⟩

/-- The restart after 65535 counted conflicts wraps the count to 0 and, with
`MAX_CONFLICTS` above 0, stops the context at once. -/
theorem exec_wrap_round (a : Acd) (ha : a.numConflicts = 65535) (hmax : 0 < cfg.maxConflicts) :
    ∃ st r, exec cfg a [.acdStart 0 linkLocalAddr, .acdArpReply localMac conflictHdr] = [st, r] ∧
      st.input = .acdStart 0 linkLocalAddr ∧ st.post.state = .probeWait ∧ r.pre.numConflicts = 65535 ∧
      r.post.numConflicts = 0 ∧ r.post.state = .off ∧
      callbacksOf r.out = [.decline, .restartClient] := by
  have hr := acdRestart_restarted cfg (acdStart cfg 0 linkLocalAddr a)
  have hk : u16 ((acdStart cfg 0 linkLocalAddr a).numConflicts + 1) = 0 := by
    simp [acdStart, ha, u16]
  simp only [Restarted, hk] at hr
  obtain ⟨hpost, hout⟩ := hr.2 hmax
  refine ⟨_, _, rfl, rfl, rfl, ha, ?_, ?_, ?_⟩ <;>
    simp only [acdStep_acdStart, conflictHdr_restarts cfg (acdStart_state cfg 0 linkLocalAddr a) rfl,
      hpost, hout]
  simp [callbacksOf, recordConflict]

/-! ## The run -/

/-- 65535 rounds, then `acd_start` and the conflicting reply once more. -/
def conflictWrapRun : List Event :=
  conflictRounds specConfig 65535 ++ [.acdStart 0 linkLocalAddr 0, .acdArpReply 0 conflictHdr]

/-- Rate limiting does not survive 65535 restarts. In `conflictWrapRun` the
count has reached `MAX_CONFLICTS` when a restart wraps it to 0: the context is
stopped and told to restart with no tick after the previous
`RESTART_CLIENT`, and no `RATE_LIMIT` in between. -/
theorem restart_client_without_rate_limit :
    ∃ xs r₁ st r₂, contextTrace specConfig 0 soloStack conflictWrapRun = xs ++ [r₁, st, r₂] ∧
      specConfig.maxConflicts ≤ r₁.post.numConflicts ∧ callbacksOf r₁.out = [.restartClient] ∧
      st.input = .acdStart 0 linkLocalAddr ∧ ticks [st] = 0 ∧
      specConfig.maxConflicts ≤ r₂.pre.numConflicts ∧ r₂.post.numConflicts = 0 ∧
      r₂.post.state = .off ∧ callbacksOf r₂.out = [.decline, .restartClient] ∧
      ∀ x ∈ [r₁, st, r₂], x.post.state ≠ .announcing := by
  have hrun : contextTrace specConfig 0 soloStack conflictWrapRun =
      exec specConfig Acd.zero (roundsInputs specConfig 65535 ++
        [.acdStart 0 linkLocalAddr, .acdArpReply localMac conflictHdr]) := by
    rw [contextTrace_eq, conflictWrapRun, List.filterMap_append, conflictRounds_inputs]; rfl
  obtain ⟨hoff, hcount⟩ := execPost_rounds specConfig 65535 (by decide)
  obtain ⟨st, r₂, hw, hst, hst', hpre, hnum, hoff₂, hcb⟩ :=
    exec_wrap_round specConfig _ hcount (by decide)
  obtain ⟨ys, r₁, hys, hout⟩ := exec_round_last specConfig
    (execPost specConfig Acd.zero (roundsInputs specConfig 65534)) (by decide)
    (execPost_rounds specConfig 65534 (by decide)).2 (by decide)
  have hlast : exec specConfig Acd.zero (roundsInputs specConfig 65535) =
      (exec specConfig Acd.zero (roundsInputs specConfig 65534) ++ ys) ++ [r₁] := by
    rw [show roundsInputs specConfig 65535 =
      roundsInputs specConfig 65534 ++ roundInputs specConfig 65534 from rfl, exec_append, hys,
      List.append_assoc]
  have hpost₁ := exec_eq_concat_post specConfig hlast
  refine ⟨exec specConfig Acd.zero (roundsInputs specConfig 65534) ++ ys, r₁, st, r₂,
    by rw [hrun, exec_append, hw, hlast]; simp, by rw [hpost₁, hcount]; decide,
    by simp [hout, callbacksOf], hst, by simp [ticks, hst, Input.isTmr],
    by rw [hpre]; decide, hnum, hoff₂, hcb, ?_⟩
  simp [hpost₁, hoff, hst', hoff₂]


/-! ## Quiescent states -/

end AcdEngine
