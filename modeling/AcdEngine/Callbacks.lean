import AcdEngine.Transitions
/-!
# The callback protocol

What a context's `acd_conflict_callback` hears in one epoch, the calls since
its last `acd_start`. `callbackEdges` is the protocol as an automaton over
the context's state: what one call other than `acd_start` can deliver, and
the state it leaves. Every call of the code is one of its edges
(`acdStep_callbackEdge`), and along its edges the automaton only ever delivers
what `epochSoFar` allows (`epochSoFar_closed`).

- `callback_protocol`: nothing before the first start, and in every epoch a
  prefix of `[IP_OK, DECLINE, RESTART_CLIENT]`, `[DECLINE, RESTART_CLIENT]` or
  `[DECLINE, DECLINE]`, the last only through a demotion in `RATE_LIMIT`.
-/

namespace AcdEngine

/-- The outcomes a call delivered, in order. -/
def callbacksOf (out : List Action) : List AcdCallbackEnum := out.filterMap Action.callbackMsg?

/-- The protocol: what one call other than `acd_start` can deliver from a
state, with the state it leaves. -/
def callbackEdges : AcdState → List (List AcdCallbackEnum × AcdState)
  | .off => [([], .off)]
  | .probeWait | .probing | .announceWait =>
    [([], .off), ([], .probeWait), ([], .probing), ([], .announceWait), ([], .announcing),
      ([.ipOk], .ongoing), ([.decline], .off), ([.decline], .rateLimit),
      ([.decline, .restartClient], .off)]
  | .announcing =>
    [([], .off), ([], .announcing), ([], .passiveOngoing), ([.ipOk], .ongoing),
      ([.decline, .restartClient], .off)]
  | .ongoing =>
    [([], .off), ([], .ongoing), ([], .passiveOngoing), ([.decline, .restartClient], .off)]
  | .passiveOngoing => [([], .off), ([], .passiveOngoing), ([.decline], .off)]
  | .rateLimit => [([], .off), ([], .rateLimit), ([.restartClient], .off), ([.decline], .off)]

/-- What an epoch may have delivered so far, given the state it is in. -/
def epochSoFar : AcdState → List (List AcdCallbackEnum)
  | .off =>
    [[], [.ipOk], [.decline], [.ipOk, .decline], [.ipOk, .decline, .restartClient],
      [.decline, .restartClient], [.decline, .decline]]
  | .probeWait | .probing | .announceWait | .announcing => [[]]
  | .ongoing => [[.ipOk]]
  | .passiveOngoing => [[], [.ipOk]]
  | .rateLimit => [[.decline]]

/-- The three sequences of the protocol, and their prefixes. -/
def EpochAllowed (l : List AcdCallbackEnum) : Prop :=
  l <+: [.ipOk, .decline, .restartClient] ∨ l <+: [.decline, .restartClient] ∨
    l <+: [.decline, .decline]

instance : DecidablePred EpochAllowed := fun _ => inferInstanceAs (Decidable (_ ∨ _ ∨ _))

/-! ## The automaton -/

theorem epochSoFar_closed (s : AcdState) :
    ∀ c ∈ epochSoFar s, ∀ e ∈ callbackEdges s, c ++ e.1 ∈ epochSoFar e.2 := by
  -- the same check as a `Bool`, evaluated in each state
  have h : ((epochSoFar s).all fun c => (callbackEdges s).all fun e =>
      (epochSoFar e.2).contains (c ++ e.1)) = true := by
    cases s <;> rfl
  exact fun c hc e he => List.elem_iff.1 (List.all_eq_true.1 (List.all_eq_true.1 h c hc) e he)

theorem epochSoFar_allowed (s : AcdState) : ∀ c ∈ epochSoFar s, EpochAllowed c := by
  have h : ((epochSoFar s).all fun c => decide (EpochAllowed c)) = true := by
    cases s <;> rfl
  exact fun c hc => of_decide_eq_true (List.all_eq_true.1 h c hc)

theorem epochSoFar_decline {s : AcdState} (h : [.decline] ∈ epochSoFar s) :
    s = .off ∨ s = .rateLimit := by
  cases s <;> simp_all [epochSoFar]

/-- `PROBE_WAIT`, `PROBING` and `ANNOUNCE_WAIT` share their edges. -/
theorem callbackEdges_of_probePhase {s : AcdState} (h : s.IsProbePhase) :
    callbackEdges s = callbackEdges .probeWait := by
  rcases h with rfl | rfl | rfl <;> rfl

variable (cfg : Config)

theorem acdTmrEntry_callbackEdge (a : Acd) (rand : Nat) :
    (callbacksOf (acdTmrEntry cfg rand a).2, (acdTmrEntry cfg rand a).1.state) ∈
      callbackEdges a.state := by
  rcases acdTmrEntry_cases rand a with he | ⟨hs, -, -, he⟩ | ⟨hs, -, -, he⟩ | ⟨hs, -, -, he⟩ |
    ⟨hs, -, -, he⟩ | ⟨hs, -, -, he⟩ | ⟨hs, -, he⟩ <;> rw [he]
  · rw [tmrCountdown_state]; cases a.state <;> simp [callbacksOf, callbackEdges]
  · rcases hs with hs | hs <;> simp [hs, callbacksOf, callbackEdges]
  · rcases hs with hs | hs <;> simp [hs, callbacksOf, callbackEdges]
  · split_ifs <;> rcases hs with hs | hs <;> simp [hs, callbacksOf, callbackEdges]
  · rcases hs with hs | hs <;> simp [hs, callbacksOf, callbackEdges]
  · simp [hs, callbacksOf, callbackEdges]
  · simp [hs, callbacksOf, callbackEdges]

/-- A restart of a context whose conflicts were cleared stops it, with
`DECLINE` and `RESTART_CLIENT`. -/
theorem acdRestart_of_cleared (hmax : 2 ≤ cfg.maxConflicts) {a : Acd} (h : a.numConflicts = 0) :
    (acdRestart cfg a).1.state = .off ∧
      callbacksOf (acdRestart cfg a).2 = [.decline, .restartClient] := by
  have hk : u16 (a.numConflicts + 1) < cfg.maxConflicts := by rw [h]; simp; omega
  rw [((acdRestart_restarted cfg a).2 hk).1, ((acdRestart_restarted cfg a).2 hk).2]
  simp [callbacksOf]

theorem acdArpReplyEntry_callbackEdge (hmax : 2 ≤ cfg.maxConflicts) {a : Acd}
    (h : CountersReset a) (m : EthAddr) (hdr : EtharpHdr) :
    (callbacksOf (acdArpReplyEntry cfg m hdr a).2, (acdArpReplyEntry cfg m hdr a).1.state) ∈
      callbackEdges a.state := by
  rw [acdArpReplyEntry_eq]
  split_ifs with hp hu
  · have hr := acdRestart_restarted cfg a
    have hrec : callbacksOf (recordConflict hdr) = [] := rfl
    simp only [callbacksOf, List.filterMap_append] at hrec ⊢
    rw [hrec, List.nil_append]
    by_cases hk : cfg.maxConflicts ≤ u16 (a.numConflicts + 1)
    · rw [(hr.1 hk).1, (hr.1 hk).2, callbackEdges_of_probePhase hp.1]
      simp [callbackEdges]
    · rw [(hr.2 (by omega)).1, (hr.2 (by omega)).2, callbackEdges_of_probePhase hp.1]
      simp [callbackEdges]
  · have hc := acdRestart_of_cleared cfg hmax (h.2 hu.1)
    have hrec : callbacksOf (recordConflict hdr) = [] := rfl
    simp only [callbacksOf, List.filterMap_append] at hrec hc ⊢
    rw [hrec, List.nil_append]
    unfold acdHandleArpConflict
    split_ifs with hps
    · simp [hps, callbackEdges]
    · rw [hc.1, hc.2]
      rcases hu.1 with hs | hs | hs <;> simp [hs, callbackEdges] at hps ⊢
    · rcases hu.1 with hs | hs | hs <;> simp [hs, callbackEdges]
  · cases hs : a.state <;> simp [callbacksOf, callbackEdges]

theorem acdPutInPassiveMode_callbackEdge (a : Acd) :
    (callbacksOf (acdPutInPassiveMode a).2, (acdPutInPassiveMode a).1.state) ∈
      callbackEdges a.state := by
  unfold acdPutInPassiveMode
  cases hs : a.state <;> simp [hs, callbacksOf, callbackEdges]

/-- Every call other than `acd_start` is an edge of the protocol, for a
context that keeps `CountersReset`, with `MAX_CONFLICTS ≥ 2`. -/
theorem acdStep_callbackEdge (hmax : 2 ≤ cfg.maxConflicts) {a : Acd} (h : CountersReset a)
    {i : Input} (hi : i.isStart = false) :
    (callbacksOf (acdStep cfg a i).2, (acdStep cfg a i).1.state) ∈ callbackEdges a.state := by
  cases i with
  | acdStart => simp [Input.isStart] at hi
  | acdStop => cases hs : a.state <;> simp [acdStep, callbacksOf, callbackEdges]
  | acdTmr rand => exact acdTmrEntry_callbackEdge cfg a rand
  | acdArpReply m hdr => exact acdArpReplyEntry_callbackEdge cfg hmax h m hdr
  | ipAddrChanged old new =>
    rw [acdStep_ipAddrChanged]
    split_ifs
    · exact acdPutInPassiveMode_callbackEdge a
    · cases hs : a.state <;> simp [callbacksOf, callbackEdges]

/-- In `RATE_LIMIT`, only a demotion declines. -/
theorem rateLimit_decline {a : Acd} (h : a.state = .rateLimit) {i : Input}
    (hd : .decline ∈ callbacksOf (acdStep cfg a i).2) : ∃ old new, i = .ipAddrChanged old new := by
  cases i with
  | ipAddrChanged old new => exact ⟨old, new, rfl⟩
  | acdStart | acdStop => simp [acdStep, callbacksOf] at hd
  | acdTmr rand =>
    simp only [acdStep, acdTmrEntry_rateLimit rand h] at hd
    split_ifs at hd <;> simp [callbacksOf] at hd
  | acdArpReply m hdr => simp [rateLimit_arp cfg h, callbacksOf] at hd

/-! ## Runs -/

theorem callbacks_exec_cons (a : Acd) (i : Input) (is : List Input) :
    callbacks (exec cfg a (i :: is)) =
      callbacksOf (acdStep cfg a i).2 ++ callbacks (exec cfg (acdStep cfg a i).1 is) := by
  simp [exec, callbacks, callbacksOf]

/-- Along a run without `acd_start`, the context keeps `CountersReset` and
the epoch's callbacks stay within `epochSoFar`. -/
theorem exec_epochSoFar (hmax : 2 ≤ cfg.maxConflicts) :
    ∀ (a : Acd) (is : List Input) (c : List AcdCallbackEnum), CountersReset a →
      c ∈ epochSoFar a.state → (∀ i ∈ is, i.isStart = false) →
      CountersReset (execPost cfg a is) ∧
        c ++ callbacks (exec cfg a is) ∈ epochSoFar (execPost cfg a is).state
  | a, [], c, h, hc, _ => by simpa [exec, execPost, callbacks] using ⟨h, hc⟩
  | a, i :: is, c, h, hc, hs => by
    have hi := hs i (List.mem_cons_self _ _)
    have hc' := epochSoFar_closed _ c hc _ (acdStep_callbackEdge cfg hmax h hi)
    have ih := exec_epochSoFar hmax (acdStep cfg a i).1 is _ (countersReset_step cfg h i) hc'
      (fun j hj => hs j (List.mem_cons_of_mem _ hj))
    rw [callbacks_exec_cons, ← List.append_assoc]
    exact ih

/-- An `OFF` context left alone by `acd_start` delivers nothing. -/
theorem exec_off_callbacks :
    ∀ (a : Acd) (is : List Input), a.state = .off → (∀ i ∈ is, i.isStart = false) →
      callbacks (exec cfg a is) = []
  | a, [], _, _ => rfl
  | a, i :: is, h, hs => by
    have hi := hs i (List.mem_cons_self _ _)
    obtain ⟨hout, hst⟩ := off_step cfg h i hi
    rw [callbacks_exec_cons, hout,
      exec_off_callbacks _ is hst (fun j hj => hs j (List.mem_cons_of_mem _ hj))]
    rfl

/-- The callback protocol over one context's part of a run: nothing before
its first `acd_start`; within each epoch a prefix of `[IP_OK, DECLINE,
RESTART_CLIENT]`, `[DECLINE, RESTART_CLIENT]` or `[DECLINE, DECLINE]`; and a
second `DECLINE` only from an address change demoting a `RATE_LIMIT`
context. -/
def CallbackProtocol (tr : List Step) : Prop :=
  (∀ xs ys, tr = xs ++ ys → (∀ st ∈ xs, st.input.isStart = false) → callbacks xs = []) ∧
  ∀ xs e ys zs, tr = xs ++ e :: ys ++ zs → e.input.isStart →
    (∀ st ∈ ys, st.input.isStart = false) →
    EpochAllowed (callbacks ys) ∧
      ∀ ys₁ st ys₂, ys = ys₁ ++ st :: ys₂ → callbacks ys₁ = [.decline] →
        .decline ∈ callbacksOf st.out →
        st.pre.state = .rateLimit ∧ ∃ old new, st.input = .ipAddrChanged old new

/-- Callback protocol: with `MAX_CONFLICTS ≥ 2`, every context keeps it in
every run from fresh contexts. -/
theorem callback_protocol (hmax : 2 ≤ cfg.maxConflicts) (s : Stack) (evs : List Event)
    (q : Nat) : CallbackProtocol (contextTrace cfg q { s with acds := fun _ => Acd.zero } evs) := by
  generalize htr' : contextTrace cfg q { s with acds := fun _ => Acd.zero } evs = tr
  have htr : tr = exec cfg Acd.zero (evs.filterMap (inputFor s.netifList q)) :=
    htr' ▸ contextTrace_eq cfg q _ evs
  refine ⟨fun xs ys h hs => ?_, fun xs e ys zs h he hs => ?_⟩
  · have hx := (exec_eq_append cfg (htr ▸ h)).1
    rw [hx]
    exact exec_off_callbacks cfg _ _ rfl (by simpa using hs)
  · rw [List.append_assoc, List.cons_append] at h
    obtain ⟨hinv, -, hpost⟩ := @mem_contextTrace cfg CountersReset
      (fun _ i h => countersReset_step cfg h i) q _ evs countersReset_zero e (by rw [htr', h]; simp)
    obtain ⟨-, -, hrest⟩ := contextTrace_eq_append_cons cfg (htr'.trans h)
    have hys := (exec_eq_append cfg hrest.symm).1
    have hpost_inv : CountersReset e.post := hpost ▸ countersReset_step cfg hinv e.input
    have hpost_st : e.post.state = .probeWait := by
      rw [hpost]
      cases hi : e.input with
      | acdStart => simp [acdStep]
      | _ => simp [hi, Input.isStart] at he
    have hstart : [] ∈ epochSoFar e.post.state := by simp [hpost_st, epochSoFar]
    have hmap : ∀ i ∈ ys.map Step.input, i.isStart = false := by simpa using hs
    refine ⟨?_, fun ys₁ st ys₂ hsplit hc hd => ?_⟩
    · have := (exec_epochSoFar cfg hmax _ _ [] hpost_inv hstart hmap).2
      rw [← hys] at this
      exact epochSoFar_allowed _ _ this
    · obtain ⟨h1, h2⟩ := exec_eq_append cfg (hys.symm.trans hsplit)
      have hpre := exec_cons_pre cfg h2
      have hmap₁ : ∀ i ∈ ys₁.map Step.input, i.isStart = false := by
        intro i hi
        obtain ⟨st', hst', rfl⟩ := List.mem_map.1 hi
        exact hs st' (by rw [hsplit]; exact List.mem_append_left _ hst')
      obtain ⟨-, hc₁⟩ := exec_epochSoFar cfg hmax _ _ [] hpost_inv hstart hmap₁
      rw [← h1, hc, List.nil_append, ← hpre] at hc₁
      have hst : st ∈ contextTrace cfg q { s with acds := fun _ => Acd.zero } evs := by
        rw [htr', h, hsplit]; simp
      rw [(mem_contextTrace_step cfg hst).1] at hd
      rcases epochSoFar_decline hc₁ with hoff | hrl
      · have hsi : st.input.isStart = false := hs st (by rw [hsplit]; simp)
        simp [(off_step cfg hoff st.input hsi).1, callbacksOf] at hd
      · exact ⟨hrl, rateLimit_decline cfg hrl hd⟩

/-- The conflict in `probeConflictRun` ends the epoch with `DECLINE` and
`RESTART_CLIENT`. -/
theorem callback_protocol_specConfig :
    2 ≤ specConfig.maxConflicts ∧
      CallbackProtocol
        (contextTrace specConfig 0 { soloStack with acds := fun _ => Acd.zero } probeConflictRun) ∧
      callbacks (contextTrace specConfig 0 { soloStack with acds := fun _ => Acd.zero }
        probeConflictRun) = [.decline, .restartClient] :=
  ⟨by decide, callback_protocol specConfig (by decide) soloStack probeConflictRun 0, by decide⟩

end AcdEngine
