import AcdEngine.Context
/-!
# The engine and its runs

The state acd.c works on is `netif_list`, each interface with its `acd_list`,
and the `struct acd`s those lists point to. `acd_tmr` walks every list of
every interface, the other entry points one context or one interface's list.
`Stack.step` runs one entry point; a run is a list of `Event`s.

`contextTrace` is what one context lived through in a run: for each call that
reached it, its state before and after, what it was told (`Input`) and what it
did. `contextTrace_eq` shows that this is `exec`, the context's own machine
`acdStep` fed with those inputs: the loops treat each context on their own,
so every property of runs is a property of one context's `exec`.

- `interleaving_invariance`: two runs whose calls reach every context in the same order
  leave the same engine, and each context lives them alike.
-/

namespace AcdEngine

/-- A network interface as acd.c sees it: its hardware address and the
contexts on its `acd_list`, in list order. -/
structure Netif where
  hwaddr : EthAddr
  acdList : List Nat

/-- The contexts on some interface's list. -/
def registered (netifs : List Netif) : List Nat := netifs.flatMap Netif.acdList

/-- The engine's state: `netif_list`, and the `struct acd`s by address. A
context is on at most one list, once: `acd_add` does not add a context twice. -/
structure Stack where
  netifList : List Netif
  acds : Nat → Acd
  nodup : (registered netifList).Nodup

/-- The calls into acd.c. `rand` is what `LWIP_ACD_RAND` returns to a context
that draws during the call; in `acdTmr`, `rand p` is what context `p` draws.
With `LWIP_RAND` defined these are successive values of one generator, taken
in `ACD_FOREACH` order. The model leaves them free: a result about every run
holds for every generator, and a result that compares two runs gives each
context the same draws in both. -/
inductive Event where
  | acdStart (acd : Nat) (ipaddr : Ip4Addr) (rand : Nat)
  | acdStop (acd : Nat)
  | acdTmr (rand : Nat → Nat)
  | acdArpReply (netif : Nat) (hdr : EtharpHdr)
  | acdNetworkChangedLinkDown (netif : Nat)
  | acdNetifIpAddrChanged (netif : Nat) (old new : Ip4Addr)

variable (cfg : Config)

/-- `ACD_FOREACH(acd, list) body`: each context of `list` in turn, updated in
place; its actions are tagged with it. -/
def acdForeach (body : Nat → Acd → Acd × List Action) :
    List Nat → (Nat → Acd) → (Nat → Acd) × List (Nat × Action)
  | [], acds => (acds, [])
  | p :: ps, acds =>
    let r := body p (acds p)
    let rest := acdForeach body ps (Function.update acds p r.1)
    (rest.1, r.2.map (p, ·) ++ rest.2)

/-- `acd_tmr`: `NETIF_FOREACH`, and `ACD_FOREACH` on each interface. -/
def acdTmr (rand : Nat → Nat) :
    List Netif → (Nat → Acd) → (Nat → Acd) × List (Nat × Action)
  | [], acds => (acds, [])
  | netif :: netifs, acds =>
    let r := acdForeach (fun p acd => acdTmrEntry cfg (rand p) acd) netif.acdList acds
    let rest := acdTmr rand netifs r.1
    (rest.1, r.2 ++ rest.2)

/-- `acd_arp_reply` (its first loop only logs). -/
def acdArpReply (netif : Netif) (hdr : EtharpHdr) (acds : Nat → Acd) :
    (Nat → Acd) × List (Nat × Action) :=
  acdForeach (fun _ acd => acdArpReplyEntry cfg netif.hwaddr hdr acd) netif.acdList acds

/-- `acd_network_changed_link_down`. -/
def acdNetworkChangedLinkDown (netif : Netif) (acds : Nat → Acd) :
    (Nat → Acd) × List (Nat × Action) :=
  acdForeach (fun _ acd => (acdStop acd, [])) netif.acdList acds

/-- `acd_netif_ip_addr_changed`. -/
def acdNetifIpAddrChanged (netif : Netif) (old new : Ip4Addr) (acds : Nat → Acd) :
    (Nat → Acd) × List (Nat × Action) :=
  if old.IsAny ∨ new.IsAny then (acds, [])
  else acdForeach (fun _ acd => acdIpAddrChangedEntry old new acd) netif.acdList acds

namespace Stack

/-- The stack with new contexts, and the actions that produced them. -/
def withAcds (s : Stack) (r : (Nat → Acd) × List (Nat × Action)) : Stack × List (Nat × Action) :=
  ({ s with acds := r.1 }, r.2)

/-- One call into acd.c. An interface is named by its place in `netif_list`. -/
def step (s : Stack) : Event → Stack × List (Nat × Action)
  | .acdStart p ipaddr rand =>
    ({ s with acds := Function.update s.acds p (acdStart cfg rand ipaddr (s.acds p)) }, [])
  | .acdStop p => ({ s with acds := Function.update s.acds p (acdStop (s.acds p)) }, [])
  | .acdTmr rand => s.withAcds (acdTmr cfg rand s.netifList s.acds)
  | .acdArpReply n hdr =>
    match s.netifList[n]? with
    | some netif => s.withAcds (acdArpReply cfg netif hdr s.acds)
    | none => (s, [])
  | .acdNetworkChangedLinkDown n =>
    match s.netifList[n]? with
    | some netif => s.withAcds (acdNetworkChangedLinkDown netif s.acds)
    | none => (s, [])
  | .acdNetifIpAddrChanged n old new =>
    match s.netifList[n]? with
    | some netif => s.withAcds (acdNetifIpAddrChanged netif old new s.acds)
    | none => (s, [])

/-- The stack after a run. -/
def run (s : Stack) : List Event → Stack
  | [] => s
  | ev :: evs => (s.step cfg ev).1.run evs

end Stack

/-- What event `ev` is to context `q`, on interfaces `netifs`: `none` when it
does not reach `q`. -/
def inputFor (netifs : List Netif) (q : Nat) : Event → Option Input
  | .acdStart p ipaddr rand => if p = q then some (.acdStart rand ipaddr) else none
  | .acdStop p => if p = q then some .acdStop else none
  | .acdTmr rand => if q ∈ registered netifs then some (.acdTmr (rand q)) else none
  | .acdArpReply n hdr =>
    match netifs[n]? with
    | some netif => if q ∈ netif.acdList then some (.acdArpReply netif.hwaddr hdr) else none
    | none => none
  | .acdNetworkChangedLinkDown n =>
    match netifs[n]? with
    | some netif => if q ∈ netif.acdList then some .acdStop else none
    | none => none
  | .acdNetifIpAddrChanged n old new =>
    match netifs[n]? with
    | some netif => if q ∈ netif.acdList then some (.ipAddrChanged old new) else none
    | none => none

/-- The actions of context `q`, in order. -/
def outputsOf (q : Nat) (l : List (Nat × Action)) : List Action :=
  l.filterMap fun x => if x.1 = q then some x.2 else none

/-- One engine call as one context lived it. -/
structure Step where
  pre : Acd
  input : Input
  out : List Action
  post : Acd

/-- The `acd_tmr` calls among the steps. -/
def ticks (tr : List Step) : Nat := tr.countP (·.input.isTmr)

/-- The probes and announces sent during the steps, in order. -/
def sends (tr : List Step) : List Action := tr.flatMap (·.out.filter Action.isSend)

/-- The outcomes delivered to the conflict callback during the steps. -/
def callbacks (tr : List Step) : List AcdCallbackEnum := tr.flatMap (·.out.filterMap Action.callbackMsg?)

/-- Context `q`'s part of a run: the calls that reached it. -/
def contextTrace (q : Nat) : Stack → List Event → List Step
  | _, [] => []
  | s, ev :: evs =>
    let r := s.step cfg ev
    match inputFor s.netifList q ev with
    | some i => ⟨s.acds q, i, outputsOf q r.2, r.1.acds q⟩ :: contextTrace q r.1 evs
    | none => contextTrace q r.1 evs

/-- A context's own machine run on a list of inputs. -/
def exec : Acd → List Input → List Step
  | _, [] => []
  | a, i :: is => ⟨a, i, (acdStep cfg a i).2, (acdStep cfg a i).1⟩ :: exec (acdStep cfg a i).1 is

/-- The context after its own machine ran on the inputs. -/
def execPost (a : Acd) (is : List Input) : Acd := is.foldl (fun a i => (acdStep cfg a i).1) a

@[simp] theorem ticks_nil : ticks [] = 0 := rfl

@[simp] theorem ticks_cons (st : Step) (tr : List Step) :
    ticks (st :: tr) = ticks tr + if st.input.isTmr then 1 else 0 := List.countP_cons _ _ _

@[simp] theorem ticks_append (tr tr' : List Step) : ticks (tr ++ tr') = ticks tr + ticks tr' :=
  List.countP_append _ _ _

@[simp] theorem sends_nil : sends [] = [] := rfl

@[simp] theorem sends_cons (st : Step) (tr : List Step) :
    sends (st :: tr) = st.out.filter Action.isSend ++ sends tr := rfl

@[simp] theorem sends_append (tr tr' : List Step) : sends (tr ++ tr') = sends tr ++ sends tr' :=
  List.flatMap_append _ _ _

/-! ## Each context on its own -/

theorem outputsOf_append (q : Nat) (l l' : List (Nat × Action)) :
    outputsOf q (l ++ l') = outputsOf q l ++ outputsOf q l' := List.filterMap_append _ _ _

theorem outputsOf_map (p q : Nat) (l : List Action) :
    outputsOf q (l.map (p, ·)) = if p = q then l else [] := by
  induction l with
  | nil => simp [outputsOf]
  | cons a l ih => by_cases h : p = q <;> simp_all [outputsOf]

section Foreach

variable {body : Nat → Acd → Acd × List Action}

/-- On a list without repeats, `ACD_FOREACH` runs `body` once on each listed
context, from its state before the loop, and leaves the others alone. -/
theorem acdForeach_at (q : Nat) :
    ∀ (ps : List Nat) (acds : Nat → Acd), ps.Nodup →
      ((acdForeach body ps acds).1 q, outputsOf q (acdForeach body ps acds).2) =
        if q ∈ ps then body q (acds q) else (acds q, [])
  | [], _, _ => by simp [acdForeach, outputsOf]
  | p :: ps, acds, hnd => by
    obtain ⟨hp, hnd⟩ := List.nodup_cons.1 hnd
    have ih := acdForeach_at q ps (Function.update acds p (body p (acds p)).1) hnd
    simp only [acdForeach, outputsOf_append, outputsOf_map] at ih ⊢
    by_cases hq : q = p
    · subst hq
      simp only [if_neg hp, Function.update_same, Prod.mk.injEq] at ih
      simp [ih]
    · rw [Function.update_noteq hq] at ih
      simp [ih, hq, Ne.symm hq]

theorem acdForeach_append (l₁ l₂ : List Nat) (acds : Nat → Acd) :
    acdForeach body (l₁ ++ l₂) acds =
      ((acdForeach body l₂ (acdForeach body l₁ acds).1).1,
        (acdForeach body l₁ acds).2 ++ (acdForeach body l₂ (acdForeach body l₁ acds).1).2) := by
  induction l₁ generalizing acds with
  | nil => rfl
  | cons p ps ih => simp [acdForeach, ih]

end Foreach

/-- `acd_tmr`'s two loops are one loop over every registered context. -/
theorem acdTmr_eq (rand : Nat → Nat) (netifs : List Netif) (acds : Nat → Acd) :
    acdTmr cfg rand netifs acds =
      acdForeach (fun p acd => acdTmrEntry cfg (rand p) acd) (registered netifs) acds := by
  induction netifs generalizing acds with
  | nil => rfl
  | cons n ns ih => simp [acdTmr, registered, List.flatMap_cons, acdForeach_append, ih]

theorem nodup_of_getElem? {netifs : List Netif} (hnd : (registered netifs).Nodup) {n : Nat}
    {netif : Netif} (h : netifs[n]? = some netif) : netif.acdList.Nodup :=
  (List.nodup_flatMap.1 hnd).1 netif (List.getElem?_mem h)

namespace Stack

@[simp] theorem step_netifList (s : Stack) (ev : Event) :
    (s.step cfg ev).1.netifList = s.netifList := by
  cases ev <;> simp only [step, withAcds] <;> split <;> rfl

/-- What one call does to context `q` is `acdStep` on the input it got. -/
theorem step_at (s : Stack) (ev : Event) (q : Nat) :
    ((s.step cfg ev).1.acds q, outputsOf q (s.step cfg ev).2) =
      match inputFor s.netifList q ev with
      | some i => acdStep cfg (s.acds q) i
      | none => (s.acds q, []) := by
  cases ev with
  | acdStart p ipaddr rand =>
    by_cases h : p = q
    · subst h; simp [step, inputFor, acdStep, outputsOf]
    · simp [step, inputFor, h, Function.update_noteq (Ne.symm h), outputsOf]
  | acdStop p =>
    by_cases h : p = q
    · subst h; simp [step, inputFor, acdStep, outputsOf]
    · simp [step, inputFor, h, Function.update_noteq (Ne.symm h), outputsOf]
  | acdTmr rand =>
    simp only [step, withAcds, inputFor, acdTmr_eq, acdForeach_at q _ _ s.nodup]
    split <;> rfl
  | acdArpReply n hdr =>
    simp only [step, inputFor]
    cases h : s.netifList[n]? with
    | none => rfl
    | some netif =>
      simp only [withAcds, acdArpReply, acdForeach_at q _ _ (nodup_of_getElem? s.nodup h)]
      split <;> rfl
  | acdNetworkChangedLinkDown n =>
    simp only [step, inputFor]
    cases h : s.netifList[n]? with
    | none => rfl
    | some netif =>
      simp only [withAcds, acdNetworkChangedLinkDown,
        acdForeach_at q _ _ (nodup_of_getElem? s.nodup h)]
      split <;> rfl
  | acdNetifIpAddrChanged n old new =>
    simp only [step, inputFor]
    cases h : s.netifList[n]? with
    | none => rfl
    | some netif =>
      have hf := @acdForeach_at (fun _ acd => acdIpAddrChangedEntry old new acd) q _
        s.acds (nodup_of_getElem? s.nodup h)
      simp only [withAcds, acdNetifIpAddrChanged]
      by_cases hq : q ∈ netif.acdList
      · simp only [hq, if_true] at hf ⊢
        split
        · simp_all [acdStep, outputsOf]
        · simp [acdStep, *]
      · simp only [hq, if_false] at hf ⊢
        split
        · simp [outputsOf]
        · exact hf

end Stack

/-- A context's part of any run is its own machine fed with the calls that
reached it. -/
theorem contextTrace_eq (q : Nat) (s : Stack) (evs : List Event) :
    contextTrace cfg q s evs = exec cfg (s.acds q) (evs.filterMap (inputFor s.netifList q)) := by
  induction evs generalizing s with
  | nil => rfl
  | cons ev evs ih =>
    have h := s.step_at cfg ev q
    simp only [contextTrace, List.filterMap_cons, ih, Stack.step_netifList]
    cases hi : inputFor s.netifList q ev with
    | none =>
      simp only [hi, Prod.mk.injEq] at h
      rw [h.1]
    | some i =>
      simp only [hi] at h
      simp only [exec, ← h]

/-- After a run, each context is where its own machine, fed with the calls that
reached it, leaves it. -/
theorem Stack.run_acds (q : Nat) (s : Stack) (evs : List Event) :
    (s.run cfg evs).acds q = execPost cfg (s.acds q) (evs.filterMap (inputFor s.netifList q)) := by
  induction evs generalizing s with
  | nil => rfl
  | cons ev evs ih =>
    have h := congrArg Prod.fst (s.step_at cfg ev q)
    simp only [Stack.run, List.filterMap_cons, ih, Stack.step_netifList]
    cases hi : inputFor s.netifList q ev with
    | none => simp only [hi] at h; rw [h]
    | some i => simp only [hi] at h; rw [h]; rfl

/-- Every step of `exec` is `acdStep` on the state before it, and a property
that every call keeps holds of every such state. -/
theorem mem_exec {P : Acd → Prop} (hP : ∀ a i, P a → P (acdStep cfg a i).1) :
    ∀ (a : Acd) (is : List Input), P a → ∀ st ∈ exec cfg a is,
      P st.pre ∧ st.out = (acdStep cfg st.pre st.input).2 ∧
        st.post = (acdStep cfg st.pre st.input).1
  | _, [], _ => by simp [exec]
  | a, i :: is, ha => by
    intro st hst
    simp only [exec, List.mem_cons] at hst
    rcases hst with rfl | hst
    · exact ⟨ha, rfl, rfl⟩
    · exact mem_exec hP _ is (hP a i ha) st hst

@[simp] theorem exec_map_input (a : Acd) (is : List Input) :
    (exec cfg a is).map Step.input = is := by
  induction is generalizing a with
  | nil => rfl
  | cons i is ih => simp [exec, ih]

/-- Past any step of a run, the run goes on from that step's state. -/
theorem exec_eq_append_cons {a : Acd} {is : List Input} {xs ys : List Step} {st : Step}
    (h : exec cfg a is = xs ++ st :: ys) :
    st.out = (acdStep cfg st.pre st.input).2 ∧ st.post = (acdStep cfg st.pre st.input).1 ∧
      ys = exec cfg st.post (ys.map Step.input) := by
  induction is generalizing a xs with
  | nil => simp [exec] at h
  | cons i is ih =>
    cases xs with
    | nil =>
      simp only [exec, List.nil_append, List.cons.injEq] at h
      obtain ⟨rfl, rfl⟩ := h
      simp
    | cons x xs => exact ih (List.cons.inj h).2

@[simp] theorem execPost_cons (a : Acd) (i : Input) (is : List Input) :
    execPost cfg a (i :: is) = execPost cfg (acdStep cfg a i).1 is := rfl

theorem execPost_append (a : Acd) (is js : List Input) :
    execPost cfg a (is ++ js) = execPost cfg (execPost cfg a is) js := List.foldl_append _ _ _ _

theorem exec_append (a : Acd) (is js : List Input) :
    exec cfg a (is ++ js) = exec cfg a is ++ exec cfg (execPost cfg a is) js := by
  induction is generalizing a with
  | nil => rfl
  | cons i is ih => simp [exec, execPost, ih]

theorem ticks_exec (a : Acd) (is : List Input) : ticks (exec cfg a is) = is.countP Input.isTmr := by
  conv_rhs => rw [← exec_map_input cfg a is, List.countP_map]
  rfl

/-- A run splits into a run and the run from where it stopped. -/
theorem exec_eq_append {a : Acd} {is : List Input} {xs ys : List Step}
    (h : exec cfg a is = xs ++ ys) :
    xs = exec cfg a (xs.map Step.input) ∧
      ys = exec cfg (execPost cfg a (xs.map Step.input)) (ys.map Step.input) := by
  induction xs generalizing a is with
  | nil => subst h; simp [exec, execPost]
  | cons st xs ih =>
    cases is with
    | nil => simp [exec] at h
    | cons i is =>
      obtain ⟨rfl, hrest⟩ := List.cons.inj h
      obtain ⟨h1, h2⟩ := ih hrest
      exact ⟨by simp [exec, ← h1], h2⟩

theorem exec_cons_pre {a : Acd} {is : List Input} {st : Step} {ys : List Step}
    (h : st :: ys = exec cfg a is) : st.pre = a := by
  cases is with
  | nil => simp [exec] at h
  | cons i is => rw [(List.cons.inj h).1]

/-- The last step of a run ends where the run does. -/
theorem exec_eq_concat_post {a : Acd} {is : List Input} {xs : List Step} {st : Step}
    (h : exec cfg a is = xs ++ [st]) : st.post = execPost cfg a is := by
  obtain ⟨-, h2⟩ := exec_eq_append cfg h
  have his : is = xs.map Step.input ++ [st.input] := by rw [← exec_map_input cfg a is, h]; simp
  rw [his, execPost_append]
  simp only [List.map_cons, List.map_nil, exec] at h2
  rw [(List.cons.inj h2).1]
  rfl

theorem contextTrace_eq_append_cons {q : Nat} {s : Stack} {evs : List Event}
    {xs ys : List Step} {st : Step} (h : contextTrace cfg q s evs = xs ++ st :: ys) :
    st.out = (acdStep cfg st.pre st.input).2 ∧ st.post = (acdStep cfg st.pre st.input).1 ∧
      ys = exec cfg st.post (ys.map Step.input) := by
  rw [contextTrace_eq] at h
  exact exec_eq_append_cons cfg h

theorem mem_contextTrace {P : Acd → Prop} (hP : ∀ a i, P a → P (acdStep cfg a i).1)
    (q : Nat) (s : Stack) (evs : List Event) (h0 : P (s.acds q)) :
    ∀ st ∈ contextTrace cfg q s evs,
      P st.pre ∧ st.out = (acdStep cfg st.pre st.input).2 ∧
        st.post = (acdStep cfg st.pre st.input).1 := by
  rw [contextTrace_eq]
  exact mem_exec cfg hP _ _ h0

theorem mem_contextTrace_step {q : Nat} {s : Stack} {evs : List Event} {st : Step}
    (h : st ∈ contextTrace cfg q s evs) :
    st.out = (acdStep cfg st.pre st.input).2 ∧ st.post = (acdStep cfg st.pre st.input).1 :=
  (@mem_contextTrace cfg (fun _ => True) (fun _ _ _ => trivial) q s evs trivial st h).2

/-! ## A small registry -/

/-- 02:00:00:00:00:01. -/
def localMac : EthAddr := ⟨[2, 0, 0, 0, 0, 1], rfl⟩

/-- 169.254.0.1. -/
def linkLocalAddr : Ip4Addr := ⟨0xa9fe0001⟩

/-- One interface, `localMac`, with context 0 on its list; every context zeroed. -/
def soloStack : Stack := ⟨[⟨localMac, [0]⟩], fun _ => Acd.zero, by decide⟩

/-- Another host, 02:00:00:00:00:02, answers for 169.254.0.1. -/
def conflictHdr : EtharpHdr where
  hwtype := 1
  proto := 0x0800
  hwlen := 6
  protolen := 4
  opcode := 2
  shwaddr := ⟨[2, 0, 0, 0, 0, 2], rfl⟩
  sipaddr := linkLocalAddr
  dhwaddr := localMac
  dipaddr := linkLocalAddr

/-- `acd_start` for context 0 on 169.254.0.1, then `n` ticks. -/
def startTicksRun (n : Nat) : List Event :=
  .acdStart 0 linkLocalAddr 0 :: List.replicate n (.acdTmr fun _ => 0)

/-- Context 0 starts on 169.254.0.1, sends its first probe, and hears another
host answer for the address. -/
def probeConflictRun : List Event :=
  [.acdStart 0 linkLocalAddr 0, .acdTmr fun _ => 0, .acdArpReply 0 conflictHdr]

/-! ## Interleavings -/

@[simp] theorem Stack.run_netifList (s : Stack) (evs : List Event) :
    (s.run cfg evs).netifList = s.netifList := by
  induction evs generalizing s with
  | nil => rfl
  | cons ev evs ih => rw [Stack.run, ih, Stack.step_netifList]

theorem Stack.ext {s t : Stack} (hn : s.netifList = t.netifList) (ha : ∀ q, s.acds q = t.acds q) :
    s = t := by
  obtain ⟨n, a, h⟩ := s
  obtain ⟨n', a', h'⟩ := t
  cases hn
  cases funext ha
  rfl

/-- Calls that reach different contexts may come in any order: two runs whose calls reach
every context in the same order leave the engine in the same state, and each context
lives them alike, step for step and action for action. -/
theorem interleaving_invariance (s : Stack) (evs evs' : List Event)
    (h : ∀ q, evs.filterMap (inputFor s.netifList q) = evs'.filterMap (inputFor s.netifList q)) :
    s.run cfg evs = s.run cfg evs' ∧ ∀ q, contextTrace cfg q s evs = contextTrace cfg q s evs' :=
  ⟨Stack.ext (by simp only [Stack.run_netifList]) fun q => by rw [Stack.run_acds, Stack.run_acds, h],
    fun q => by rw [contextTrace_eq, contextTrace_eq, h]⟩

/-- Two interfaces with the hardware address `localMac`, context 0 on the first and
context 1 on the second; every context zeroed. -/
def duoStack : Stack := ⟨[⟨localMac, [0]⟩, ⟨localMac, [1]⟩], fun _ => Acd.zero, by decide⟩

/-- A link going down on one interface and an address change on the other reach no
common context, and commute. -/
theorem interleaving_invariance_duoStack :
    (∀ q, [Event.acdNetworkChangedLinkDown 0, .acdNetifIpAddrChanged 1 linkLocalAddr ⟨0x0a000001⟩].filterMap
        (inputFor duoStack.netifList q) =
      [Event.acdNetifIpAddrChanged 1 linkLocalAddr ⟨0x0a000001⟩, .acdNetworkChangedLinkDown 0].filterMap
        (inputFor duoStack.netifList q)) ∧
    (duoStack.run specConfig [.acdNetworkChangedLinkDown 0, .acdNetifIpAddrChanged 1 linkLocalAddr ⟨0x0a000001⟩] =
        duoStack.run specConfig [.acdNetifIpAddrChanged 1 linkLocalAddr ⟨0x0a000001⟩, .acdNetworkChangedLinkDown 0] ∧
      ∀ q, contextTrace specConfig q duoStack
          [.acdNetworkChangedLinkDown 0, .acdNetifIpAddrChanged 1 linkLocalAddr ⟨0x0a000001⟩] =
        contextTrace specConfig q duoStack
          [.acdNetifIpAddrChanged 1 linkLocalAddr ⟨0x0a000001⟩, .acdNetworkChangedLinkDown 0]) := by
  have h : ∀ q, [Event.acdNetworkChangedLinkDown 0, .acdNetifIpAddrChanged 1 linkLocalAddr ⟨0x0a000001⟩].filterMap
        (inputFor duoStack.netifList q) =
      [Event.acdNetifIpAddrChanged 1 linkLocalAddr ⟨0x0a000001⟩, .acdNetworkChangedLinkDown 0].filterMap
        (inputFor duoStack.netifList q) := by
    intro q
    by_cases h0 : q = 0
    · subst h0; decide
    · by_cases h1 : q = 1
      · subst h1; decide
      · simp [inputFor, duoStack, h0, h1]
  exact ⟨h, interleaving_invariance specConfig duoStack _ _ h⟩

end AcdEngine
