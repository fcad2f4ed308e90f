import AcdEngine.Registry
/-!
# The engine over its registries

`Stack` runs acd.c on interfaces whose contexts are lists, fixed along a run. Here the
engine runs on its state as acd.c keeps it: each interface's `acd_list` points to its
first context, the `next` field of a `struct acd` is one field whichever list the
context is on, `acd_add` and `acd_remove` come between the other calls, and every
`ACD_FOREACH` follows `next` until `NULL`, with a bound on its iterations (`fuel`).

`ChainStack.Holds s netifs`: the chain of each interface visits the list of the same
interface in `netifs` and ends in `NULL`. `HomeOk home netifs`: every list has no
repeats and holds only contexts whose interface `home` names, so no context is on two
lists and `ChainStack.abs` is the list-level `Stack` the chains hold.

- `chain_engine_refines`: from interfaces whose `acd_list` is `NULL`, whatever the `next`
  fields hold, every sequence of calls in which `acd_add` puts each context only on its
  `home` interface returns and keeps `Holds` and `HomeOk`; each engine call is
  `Stack.step` on the lists the chains hold; and each `acd_add` and `acd_remove` acts on
  its interface's list as `RegCall.apply`, and on nothing else.
- `chain_run_refines`: between registry calls, a whole run over the chains returns and is
  `Stack.run` over the lists they hold.
-/

namespace AcdEngine

/-- An interface as acd.c keeps it: its hardware address and `netif->acd_list`. -/
structure ChainNetif where
  hwaddr : EthAddr
  acdList : Option Nat

/-- The engine's state as acd.c keeps it: `netif_list`, the `next` and
`acd_conflict_callback` fields of each `struct acd`, and its other fields. -/
structure ChainStack where
  netifList : List ChainNetif
  next : Nat → Option Nat
  conflictCallback : Nat → Nat
  acds : Nat → Acd

/-- A call into acd.c: `acd_add` or `acd_remove` on an interface, or an engine call. -/
inductive ChainEvent where
  | register (netif : Nat) (c : RegCall)
  | engine (ev : Event)

/-- What a registry call does to an interface's list. -/
def Netif.register (netif : Netif) (c : RegCall) : Netif :=
  { netif with acdList := c.apply netif.acdList }

variable (cfg : Config)

namespace ChainStack

/-- `acd_tmr`: `NETIF_FOREACH`, and `ACD_FOREACH` over each interface's chain. -/
def acdTmr (fuel : Nat) (rand : Nat → Nat) (next : Nat → Option Nat) :
    List ChainNetif → (Nat → Acd) → Option ((Nat → Acd) × List (Nat × Action))
  | [], acds => some (acds, [])
  | netif :: netifs, acds =>
    (acdForeachChain next (fun p acd => acdTmrEntry cfg (rand p) acd) fuel netif.acdList
      acds).bind fun r =>
        (acdTmr fuel rand next netifs r.1).map fun rest => (rest.1, r.2 ++ rest.2)

/-- The registry of interface `netif`. -/
def registry (s : ChainStack) (netif : ChainNetif) : Registry :=
  ⟨netif.acdList, s.next, s.conflictCallback⟩

/-- The stack after a registry call on interface `n`, which is `netif`, left `r`. -/
def setRegistry (s : ChainStack) (n : Nat) (netif : ChainNetif) (r : Registry) : ChainStack :=
  { s with netifList := s.netifList.set n { netif with acdList := r.acdList }, next := r.next,
           conflictCallback := r.conflictCallback }

/-- The stack with new contexts, and the actions that produced them. -/
def withAcds (s : ChainStack) (r : (Nat → Acd) × List (Nat × Action)) :
    ChainStack × List (Nat × Action) :=
  ({ s with acds := r.1 }, r.2)

/-- One call into acd.c, each loop bounded by `fuel`: `none` if a chain is longer. An
interface is named by its place in `netif_list`. -/
def step (fuel : Nat) (s : ChainStack) : ChainEvent → Option (ChainStack × List (Nat × Action))
  | .register n c =>
    match s.netifList[n]? with
    | some netif => (c.run fuel (s.registry netif)).map fun r => (s.setRegistry n netif r, [])
    | none => some (s, [])
  | .engine (.acdStart p ipaddr rand) =>
    some ({ s with acds := Function.update s.acds p (acdStart cfg rand ipaddr (s.acds p)) }, [])
  | .engine (.acdStop p) =>
    some ({ s with acds := Function.update s.acds p (acdStop (s.acds p)) }, [])
  | .engine (.acdTmr rand) => (acdTmr cfg fuel rand s.next s.netifList s.acds).map s.withAcds
  | .engine (.acdArpReply n hdr) =>
    match s.netifList[n]? with
    | some netif =>
      (acdForeachChain s.next (fun _ acd => acdArpReplyEntry cfg netif.hwaddr hdr acd) fuel
        netif.acdList s.acds).map s.withAcds
    | none => some (s, [])
  | .engine (.acdNetworkChangedLinkDown n) =>
    match s.netifList[n]? with
    | some netif =>
      (acdForeachChain s.next (fun _ acd => (acdStop acd, [])) fuel netif.acdList s.acds).map
        s.withAcds
    | none => some (s, [])
  | .engine (.acdNetifIpAddrChanged n old new) =>
    match s.netifList[n]? with
    | some netif =>
      if old.IsAny ∨ new.IsAny then some (s, [])
      else
        (acdForeachChain s.next (fun _ acd => acdIpAddrChangedEntry old new acd) fuel
          netif.acdList s.acds).map s.withAcds
    | none => some (s, [])

/-- `Reaches s evs s'`: the calls `evs`, made in turn from `s`, each return, the last
leaving `s'`. -/
inductive Reaches : ChainStack → List ChainEvent → ChainStack → Prop
  | nil (s : ChainStack) : Reaches s [] s
  | cons {s s' s'' : ChainStack} {ev : ChainEvent} {evs : List ChainEvent}
      {outs : List (Nat × Action)} (fuel : Nat) :
      s.step cfg fuel ev = some (s', outs) → Reaches s' evs s'' → Reaches s (ev :: evs) s''

/-- Interface `cn` is the list-level interface `netif`: the same hardware address, and
its chain visits `netif.acdList` and ends in `NULL`. -/
def NetifHolds (next : Nat → Option Nat) (cn : ChainNetif) (netif : Netif) : Prop :=
  cn.hwaddr = netif.hwaddr ∧ Seg next cn.acdList netif.acdList none

/-- Each interface's chain is the list of the same interface in `netifs`. -/
def Holds (s : ChainStack) (netifs : List Netif) : Prop :=
  ∀ n : Nat, Option.Rel (NetifHolds s.next) s.netifList[n]? netifs[n]?

end ChainStack

/-- Every list has no repeats and holds only contexts whose interface `home` names. -/
def HomeOk (home : Nat → Nat) (netifs : List Netif) : Prop :=
  ∀ (n : Nat) (netif : Netif), netifs[n]? = some netif →
    netif.acdList.Nodup ∧ ∀ acd ∈ netif.acdList, home acd = n

/-- The call puts no context on an interface other than the one `home` names. -/
def ChainEvent.Respects (home : Nat → Nat) : ChainEvent → Prop
  | .register n (.acdAdd acd _) => home acd = n
  | _ => True

/-! ## The lists the chains hold -/

theorem mem_registered {netifs : List Netif} {acd : Nat} (h : acd ∈ registered netifs) :
    ∃ (n : Nat) (netif : Netif), netifs[n]? = some netif ∧ acd ∈ netif.acdList := by
  obtain ⟨netif, hm, ha⟩ := List.mem_flatMap.1 h
  obtain ⟨n, hn⟩ := List.mem_iff_getElem?.1 hm
  exact ⟨n, netif, hn, ha⟩

theorem length_le_registered {netifs : List Netif} {netif : Netif} (h : netif ∈ netifs) :
    netif.acdList.length ≤ (registered netifs).length :=
  (List.sublist_flatten_of_mem (List.mem_map_of_mem Netif.acdList h)).length_le

/-- Lists whose contexts have the interfaces `home` names, from `k` on, share none. -/
theorem registered_nodup_of_home {home : Nat → Nat} : ∀ {netifs : List Netif} (k : Nat),
    (∀ (n : Nat) (netif : Netif), netifs[n]? = some netif →
      netif.acdList.Nodup ∧ ∀ acd ∈ netif.acdList, home acd = k + n) →
    (registered netifs).Nodup
  | [], _, _ => List.nodup_nil
  | netif :: netifs, k, h => by
    have h0 := h 0 netif (by simp)
    have ht : ∀ (n : Nat) (netif' : Netif), netifs[n]? = some netif' →
        netif'.acdList.Nodup ∧ ∀ acd ∈ netif'.acdList, home acd = k + 1 + n := fun n netif' hn => by
      have := h (n + 1) netif' (by simpa using hn)
      rwa [Nat.add_assoc, Nat.add_comm 1 n]
    refine List.nodup_append.2 ⟨h0.1, registered_nodup_of_home (k + 1) ht, fun acd ha hb => ?_⟩
    obtain ⟨m, netif', hm, hb'⟩ := mem_registered hb
    have h1 := h0.2 acd ha
    have h2 := (ht m netif' hm).2 acd hb'
    omega

theorem HomeOk.nodup {home : Nat → Nat} {netifs : List Netif} (h : HomeOk home netifs) :
    (registered netifs).Nodup :=
  registered_nodup_of_home 0 fun n netif hn => by simpa using h n netif hn

namespace ChainStack

/-- The list-level stack whose lists the chains hold. -/
def abs (s : ChainStack) {home : Nat → Nat} (netifs : List Netif) (h : HomeOk home netifs) :
    Stack :=
  ⟨netifs, s.acds, h.nodup⟩

@[simp] theorem abs_netifList (s : ChainStack) {home : Nat → Nat} (netifs : List Netif)
    (h : HomeOk home netifs) : (s.abs netifs h).netifList = netifs := rfl

@[simp] theorem abs_acds (s : ChainStack) {home : Nat → Nat} (netifs : List Netif)
    (h : HomeOk home netifs) : (s.abs netifs h).acds = s.acds := rfl

theorem Holds.at {s : ChainStack} {netifs : List Netif} (hs : s.Holds netifs) (n : Nat) :
    (s.netifList[n]? = none ∧ netifs[n]? = none) ∨
      ∃ cn netif, s.netifList[n]? = some cn ∧ netifs[n]? = some netif ∧ NetifHolds s.next cn netif := by
  unfold Holds at hs
  have h := hs n
  revert h
  generalize s.netifList[n]? = a
  generalize netifs[n]? = b
  rintro (⟨h⟩ | _)
  · exact .inr ⟨_, _, rfl, rfl, h⟩
  · exact .inl ⟨rfl, rfl⟩

/-- `Holds` reads the interfaces and the `next` fields only. -/
theorem Holds.withAcds {s : ChainStack} {netifs : List Netif} (hs : s.Holds netifs)
    (r : (Nat → Acd) × List (Nat × Action)) : (s.withAcds r).1.Holds netifs := by
  unfold Holds at hs ⊢
  exact hs

/-! ## Engine calls -/

variable {rand : Nat → Nat} {next : Nat → Option Nat}

/-- `acd_tmr` over chains that hold lists returns within as many iterations as the longest
list, and whenever it returns, it is `acd_tmr` over the lists. -/
theorem acdTmr_chain (fuel : Nat) : ∀ {cns : List ChainNetif} {netifs : List Netif}
    (acds : Nat → Acd), (∀ n : Nat, Option.Rel (NetifHolds next) cns[n]? netifs[n]?) →
      ((∀ netif ∈ netifs, netif.acdList.length ≤ fuel) →
        acdTmr cfg fuel rand next cns acds = some (AcdEngine.acdTmr cfg rand netifs acds)) ∧
      ∀ res, acdTmr cfg fuel rand next cns acds = some res →
        res = AcdEngine.acdTmr cfg rand netifs acds
  | [], [], _, _ => ⟨fun _ => rfl, fun _ h => (Option.some.inj h).symm⟩
  | [], _ :: _, _, h => by
    have h0 := h 0
    simp only [List.getElem?_nil, List.getElem?_cons_zero] at h0
    cases h0
  | _ :: _, [], _, h => by
    have h0 := h 0
    simp only [List.getElem?_nil, List.getElem?_cons_zero] at h0
    cases h0
  | cn :: cns, netif :: netifs, acds, h => by
    have h0 := h 0
    simp only [List.getElem?_cons_zero] at h0
    obtain ⟨h0⟩ := h0
    have ht : ∀ n : Nat, Option.Rel (NetifHolds next) cns[n]? netifs[n]? := fun n => by
      simpa using h (n + 1)
    refine ⟨fun hf => ?_, fun res hr => ?_⟩
    · simp only [acdTmr, AcdEngine.acdTmr,
        acdForeachChain_eq _ h0.2 (hf netif (List.mem_cons_self _ _)), Option.some_bind,
        (acdTmr_chain fuel _ ht).1 fun n hn => hf n (List.mem_cons_of_mem _ hn), Option.map_some']
    · simp only [acdTmr, Option.bind_eq_some, Option.map_eq_some'] at hr
      obtain ⟨r, hr1, rest, hrest, rfl⟩ := hr
      obtain rfl := acdForeachChain_some h0.2 hr1
      rw [(acdTmr_chain fuel _ ht).2 rest hrest]
      rfl

/-- An engine call on chains that hold lists, with as many iterations as contexts are
listed, is `Stack.step` on the lists. -/
theorem step_engine_eq {home : Nat → Nat} {s : ChainStack} {netifs : List Netif}
    (h : HomeOk home netifs) (hs : s.Holds netifs) (ev : Event) :
    s.step cfg (registered netifs).length (.engine ev) =
      some (s.withAcds (((s.abs netifs h).step cfg ev).1.acds, ((s.abs netifs h).step cfg ev).2)) := by
  have hf : ∀ netif ∈ netifs, netif.acdList.length ≤ (registered netifs).length :=
    fun _ => length_le_registered
  cases ev with
  | acdStart p ipaddr rand => rfl
  | acdStop p => rfl
  | acdTmr rand =>
    simp only [step, Stack.step, Stack.withAcds, abs_netifList, abs_acds,
      (acdTmr_chain cfg _ s.acds hs).1 hf, Option.map_some']
  | acdArpReply n hdr =>
    rcases hs.at n with ⟨h1, h2⟩ | ⟨cn, netif, h1, h2, hw, hseg⟩
    · simp only [step, Stack.step, abs_netifList, h1, h2]; rfl
    · simp only [step, Stack.step, Stack.withAcds, abs_netifList, abs_acds, h1, h2, hw,
        acdArpReply, acdForeachChain_eq _ hseg (hf netif (List.getElem?_mem h2)),
        Option.map_some']
  | acdNetworkChangedLinkDown n =>
    rcases hs.at n with ⟨h1, h2⟩ | ⟨cn, netif, h1, h2, -, hseg⟩
    · simp only [step, Stack.step, abs_netifList, h1, h2]; rfl
    · simp only [step, Stack.step, Stack.withAcds, abs_netifList, abs_acds, h1, h2,
        acdNetworkChangedLinkDown, acdForeachChain_eq _ hseg (hf netif (List.getElem?_mem h2)),
        Option.map_some']
  | acdNetifIpAddrChanged n old new =>
    rcases hs.at n with ⟨h1, h2⟩ | ⟨cn, netif, h1, h2, -, hseg⟩
    · simp only [step, Stack.step, abs_netifList, h1, h2]; rfl
    · simp only [step, Stack.step, Stack.withAcds, abs_netifList, abs_acds, h1, h2,
        acdNetifIpAddrChanged]
      split_ifs
      · rfl
      · rw [acdForeachChain_eq _ hseg (hf netif (List.getElem?_mem h2)), Option.map_some']

/-- Whenever an engine call on chains that hold lists returns, it is `Stack.step` on the
lists. -/
theorem step_engine_some {home : Nat → Nat} {s : ChainStack} {netifs : List Netif}
    (h : HomeOk home netifs) (hs : s.Holds netifs) (ev : Event) {fuel : Nat}
    {res : ChainStack × List (Nat × Action)} (hr : s.step cfg fuel (.engine ev) = some res) :
    res = s.withAcds (((s.abs netifs h).step cfg ev).1.acds, ((s.abs netifs h).step cfg ev).2) := by
  cases ev with
  | acdStart p ipaddr rand => exact (Option.some.inj hr).symm
  | acdStop p => exact (Option.some.inj hr).symm
  | acdTmr rand =>
    simp only [step, Option.map_eq_some'] at hr
    obtain ⟨r, hr, rfl⟩ := hr
    rw [(acdTmr_chain cfg fuel s.acds hs).2 r hr]
    rfl
  | acdArpReply n hdr =>
    rcases hs.at n with ⟨h1, h2⟩ | ⟨cn, netif, h1, h2, hw, hseg⟩
    · simp only [step, h1, Option.some.injEq] at hr
      subst hr
      simp only [Stack.step, abs_netifList, h2]
      rfl
    · simp only [step, h1, Option.map_eq_some'] at hr
      obtain ⟨r, hr, rfl⟩ := hr
      rw [acdForeachChain_some hseg hr]
      simp only [Stack.step, Stack.withAcds, abs_netifList, abs_acds, h2, hw, acdArpReply]
  | acdNetworkChangedLinkDown n =>
    rcases hs.at n with ⟨h1, h2⟩ | ⟨cn, netif, h1, h2, -, hseg⟩
    · simp only [step, h1, Option.some.injEq] at hr
      subst hr
      simp only [Stack.step, abs_netifList, h2]
      rfl
    · simp only [step, h1, Option.map_eq_some'] at hr
      obtain ⟨r, hr, rfl⟩ := hr
      rw [acdForeachChain_some hseg hr]
      simp only [Stack.step, Stack.withAcds, abs_netifList, abs_acds, h2,
        acdNetworkChangedLinkDown]
  | acdNetifIpAddrChanged n old new =>
    rcases hs.at n with ⟨h1, h2⟩ | ⟨cn, netif, h1, h2, -, hseg⟩
    · simp only [step, h1, Option.some.injEq] at hr
      subst hr
      simp only [Stack.step, abs_netifList, h2]
      rfl
    · simp only [step, h1] at hr
      simp only [Stack.step, Stack.withAcds, abs_netifList, abs_acds, h2, acdNetifIpAddrChanged]
      split_ifs at hr ⊢
      · cases hr; rfl
      · simp only [Option.map_eq_some'] at hr
        obtain ⟨r, hr, rfl⟩ := hr
        rw [acdForeachChain_some hseg hr]

end ChainStack

/-! ## Registry calls -/

/-- The lists after a registry call on interface `n`. -/
theorem HomeOk.register {home : Nat → Nat} {netifs : List Netif} (h : HomeOk home netifs)
    {n : Nat} {c : RegCall} (hc : (ChainEvent.register n c).Respects home) :
    HomeOk home (netifs.modify (·.register c) n) := by
  intro m netif' hm
  rw [List.getElem?_modify] at hm
  cases hnm : netifs[m]? with
  | none => simp [hnm] at hm
  | some netif =>
    obtain ⟨hnd, hhome⟩ := h m netif hnm
    simp only [hnm, Option.map_eq_map, Option.map_some', Option.some.injEq] at hm
    subst hm
    split_ifs with he
    · subst he
      refine ⟨RegCall.apply_nodup hnd c, fun acd ha => ?_⟩
      cases c with
      | acdAdd a cb =>
        simp only [Netif.register, RegCall.apply] at ha
        split_ifs at ha
        · exact hhome acd ha
        · rcases List.mem_cons.1 ha with rfl | ha
          · exact hc
          · exact hhome acd ha
      | acdRemove a => exact hhome acd (List.mem_of_mem_erase ha)
    · exact ⟨hnd, hhome⟩

namespace ChainStack

/-- After a registry call on interface `n`, the chains hold the lists with that interface's
changed by `RegCall.apply`: the call writes the `next` fields of its own list and of the
context it adds, and none of those is on another list. -/
theorem Holds.setRegistry {home : Nat → Nat} {s : ChainStack} {netifs : List Netif}
    (h : HomeOk home netifs) (hs : s.Holds netifs) {n : Nat} {c : RegCall}
    (hc : (ChainEvent.register n c).Respects home) {cn : ChainNetif} {netif : Netif}
    (h1 : s.netifList[n]? = some cn) (h2 : netifs[n]? = some netif) (hw : cn.hwaddr = netif.hwaddr)
    {fuel : Nat} {r' : Registry} (hr : AcdEngine.Holds (s.registry cn) netif.acdList)
    (hrun : c.run fuel (s.registry cn) = some r') :
    (s.setRegistry n cn r').Holds (netifs.modify (·.register c) n) := by
  have hlen : n < s.netifList.length := (List.getElem?_eq_some_iff.1 h1).1
  intro m
  simp only [ChainStack.setRegistry, List.getElem?_set, hlen, if_true, List.getElem?_modify]
  by_cases he : n = m
  · subst he
    simp only [if_true, h2, Option.map_eq_map, Option.map_some']
    exact .some ⟨hw, ((RegCall.run_holds hr c).2 fuel r' hrun).seg⟩
  · simp only [he, if_false]
    rcases hs.at m with ⟨h1', h2'⟩ | ⟨cn', netif', h1', h2', hw', hseg'⟩
    · simp only [h1', h2', Option.map_eq_map, Option.map_none']
      exact .none
    · simp only [h1', h2', Option.map_eq_map, Option.map_some']
      -- the other chain visits contexts whose `next` fields the call left alone
      have hm : ∀ c' ∈ netif'.acdList, home c' = m := (h m netif' h2').2
      refine .some ⟨hw', hseg'.congr fun c' hc' => RegCall.run_next hr hrun ?_ ?_⟩
      · exact fun hin => he (((h n netif h2).2 c' hin).symm.trans (hm c' hc'))
      · rintro acd cb rfl rfl
        exact he (hc.symm.trans (hm c' hc'))

/-- A registry call on interface `n` returns given more iterations than its list is
long, and whenever it returns, the chains hold the lists with that interface's changed by
`RegCall.apply`, and nothing else is changed but the `next` and callback fields. -/
theorem step_register {home : Nat → Nat} {s : ChainStack} {netifs : List Netif}
    (h : HomeOk home netifs) (hs : s.Holds netifs) (n : Nat) (c : RegCall)
    (hc : (ChainEvent.register n c).Respects home) :
    (∃ fuel res, s.step cfg fuel (.register n c) = some res) ∧
    ∀ fuel s' outs, s.step cfg fuel (.register n c) = some (s', outs) →
      outs = [] ∧ s'.acds = s.acds ∧ s'.Holds (netifs.modify (·.register c) n) := by
  rcases hs.at n with ⟨h1, h2⟩ | ⟨cn, netif, h1, h2, hw, hseg⟩
  · -- no interface `n`: nothing happens
    have hmod : netifs.modify (·.register c) n = netifs :=
      List.ext_getElem? fun m => by
        rw [List.getElem?_modify]
        by_cases he : n = m
        · subst he; simp [h2]
        · cases netifs[m]? <;> simp [he]
    refine ⟨⟨0, (s, []), by simp only [step, h1]⟩, fun fuel s' outs hr => ?_⟩
    simp only [step, h1, Option.some.injEq, Prod.mk.injEq] at hr
    obtain ⟨rfl, rfl⟩ := hr
    rw [hmod]
    exact ⟨rfl, rfl, hs⟩
  · have hr : AcdEngine.Holds (s.registry cn) netif.acdList := ⟨hseg, (h n netif h2).1⟩
    obtain ⟨r₀, hr₀⟩ := (RegCall.run_holds hr c).1
    refine ⟨⟨netif.acdList.length + 1, (s.setRegistry n cn r₀, []),
      by simp only [step, h1, hr₀, Option.map_some']⟩,
      fun fuel s' outs hstep => ?_⟩
    simp only [step, h1, Option.map_eq_some', Prod.mk.injEq] at hstep
    obtain ⟨r', hrun, rfl, rfl⟩ := hstep
    exact ⟨rfl, rfl, hs.setRegistry h hc h1 h2 hw hr hrun⟩

/-! ## Runs -/

/-- The chains hold lists that `HomeOk` allows. -/
def Fits (home : Nat → Nat) (s : ChainStack) : Prop :=
  ∃ netifs, s.Holds netifs ∧ HomeOk home netifs

/-- Interfaces whose `acd_list` is `NULL` hold empty lists, whatever `next` holds. -/
theorem fits_empty {home : Nat → Nat} {s : ChainStack}
    (h0 : ∀ cn ∈ s.netifList, cn.acdList = none) : s.Fits home := by
  refine ⟨s.netifList.map fun cn => ⟨cn.hwaddr, []⟩, fun m => ?_, fun m netif hm => ?_⟩
  · rw [List.getElem?_map]
    cases hm : s.netifList[m]? with
    | none => exact .none
    | some cn =>
      refine .some ⟨rfl, ?_⟩
      rw [h0 cn (List.getElem?_mem hm)]
      exact .nil none
  · rw [List.getElem?_map] at hm
    obtain ⟨cn, -, rfl⟩ := Option.map_eq_some'.1 hm
    exact ⟨List.nodup_nil, fun _ h => absurd h (List.not_mem_nil _)⟩

/-- From a state that fits, every call that respects `home` returns, and whenever it
returns, the state still fits. -/
theorem step_fits {home : Nat → Nat} {s : ChainStack} (hs : s.Fits home) (ev : ChainEvent)
    (hev : ev.Respects home) :
    (∃ fuel res, s.step cfg fuel ev = some res) ∧
      ∀ fuel s' outs, s.step cfg fuel ev = some (s', outs) → s'.Fits home := by
  obtain ⟨netifs, hs, h⟩ := hs
  cases ev with
  | register n c =>
    obtain ⟨hex, hall⟩ := step_register cfg h hs n c hev
    exact ⟨hex, fun fuel s' outs hr => ⟨_, (hall fuel s' outs hr).2.2, h.register hev⟩⟩
  | engine ev =>
    refine ⟨⟨_, _, step_engine_eq cfg h hs ev⟩, fun fuel s' outs hr => ?_⟩
    obtain ⟨rfl, -⟩ := Prod.mk.inj (step_engine_some cfg h hs ev hr)
    exact ⟨netifs, hs.withAcds _, h⟩

/-- From a state that fits, every sequence of calls that respect `home` returns, and
leaves a state that fits. -/
theorem reaches_fits {home : Nat → Nat} : ∀ {s : ChainStack} (evs : List ChainEvent),
    s.Fits home → (∀ ev ∈ evs, ev.Respects home) →
      (∃ s', Reaches cfg s evs s') ∧ ∀ s', Reaches cfg s evs s' → s'.Fits home
  | s, [], hs, _ => ⟨⟨s, .nil s⟩, fun s' h => by cases h; exact hs⟩
  | s, ev :: evs, hs, hev => by
    have hevs : ∀ e ∈ evs, e.Respects home := fun e he => hev e (List.mem_cons_of_mem _ he)
    obtain ⟨⟨fuel, ⟨s₁, outs⟩, h1⟩, hall⟩ := step_fits cfg hs ev (hev ev (List.mem_cons_self _ _))
    obtain ⟨s', hs'⟩ := (reaches_fits evs (hall fuel s₁ outs h1) hevs).1
    refine ⟨⟨s', .cons fuel h1 hs'⟩, fun s' h => ?_⟩
    cases h with
    | cons fuel' h1' hrest => exact (reaches_fits evs (hall _ _ _ h1') hevs).2 s' hrest

end ChainStack

/-- The engine over its registries as acd.c keeps them, with `acd_add` putting each
context only on the interface `home` names: (1) from interfaces whose `acd_list` is
`NULL`, whatever the `next` fields hold, every sequence of calls returns, and after it
every interface's chain visits a list and ends in `NULL`, the lists having no repeats and
sharing no context; (2) from such chains, every engine call returns, and whenever it
returns it leaves the chains alone and is `Stack.step` on the lists they hold, in the
contexts it leaves and the actions it takes; (3) every `acd_add` and `acd_remove` returns,
takes no action, leaves every context's other fields alone, and changes its interface's
list as `RegCall.apply` and no other list. -/
def ChainRefinement (home : Nat → Nat) : Prop :=
  (∀ (s : ChainStack) (evs : List ChainEvent), (∀ cn ∈ s.netifList, cn.acdList = none) →
      (∀ ev ∈ evs, ev.Respects home) →
      (∃ s', ChainStack.Reaches cfg s evs s') ∧
        ∀ s', ChainStack.Reaches cfg s evs s' → ∃ netifs, s'.Holds netifs ∧ HomeOk home netifs) ∧
  (∀ (s : ChainStack) (netifs : List Netif) (h : HomeOk home netifs) (ev : Event),
      s.Holds netifs →
      (∃ fuel res, s.step cfg fuel (.engine ev) = some res) ∧
      ∀ fuel s' outs, s.step cfg fuel (.engine ev) = some (s', outs) →
        s'.Holds netifs ∧ s'.acds = ((s.abs netifs h).step cfg ev).1.acds ∧
          outs = ((s.abs netifs h).step cfg ev).2) ∧
  (∀ (s : ChainStack) (netifs : List Netif) (n : Nat) (c : RegCall), s.Holds netifs →
      HomeOk home netifs → (ChainEvent.register n c).Respects home →
      (∃ fuel res, s.step cfg fuel (.register n c) = some res) ∧
      ∀ fuel s' outs, s.step cfg fuel (.register n c) = some (s', outs) →
        outs = [] ∧ s'.acds = s.acds ∧ s'.Holds (netifs.modify (·.register c) n) ∧
          HomeOk home (netifs.modify (·.register c) n))

/-- The engine over its pointer chains refines the engine over lists. -/
theorem chain_engine_refines (home : Nat → Nat) : ChainRefinement cfg home := by
  refine ⟨fun s evs h0 hevs => ChainStack.reaches_fits cfg evs (ChainStack.fits_empty h0) hevs,
    fun s netifs h ev hs => ?_, fun s netifs n c hs h hc => ?_⟩
  · refine ⟨⟨_, _, ChainStack.step_engine_eq cfg h hs ev⟩, fun fuel s' outs hr => ?_⟩
    obtain ⟨rfl, rfl⟩ := Prod.mk.inj (ChainStack.step_engine_some cfg h hs ev hr)
    exact ⟨hs.withAcds _, rfl, rfl⟩
  · obtain ⟨hex, hall⟩ := ChainStack.step_register cfg h hs n c hc
    refine ⟨hex, fun fuel s' outs hr => ?_⟩
    obtain ⟨hnil, hacds, hs'⟩ := hall fuel s' outs hr
    exact ⟨hnil, hacds, hs', h.register hc⟩

/-- Between registry calls, a run of the engine over pointer chains is a run of the engine
over the lists the chains hold: it returns, the chains keep holding the lists, and the
contexts end where `Stack.run` leaves them. -/
theorem chain_run_refines {home : Nat → Nat} (netifs : List Netif) (h : HomeOk home netifs) :
    ∀ (s : ChainStack) (evs : List Event), s.Holds netifs →
      (∃ s', ChainStack.Reaches cfg s (evs.map .engine) s') ∧
      ∀ s', ChainStack.Reaches cfg s (evs.map .engine) s' →
        s'.Holds netifs ∧ s'.acds = ((s.abs netifs h).run cfg evs).acds
  | s, [], hs => ⟨⟨s, .nil s⟩, fun s' hr => by cases hr; exact ⟨hs, rfl⟩⟩
  | s, ev :: evs, hs => by
    let s₁ := (s.withAcds (((s.abs netifs h).step cfg ev).1.acds, ((s.abs netifs h).step cfg ev).2)).1
    have hs₁ : s₁.Holds netifs := hs.withAcds _
    have habs : ((s.abs netifs h).step cfg ev).1 = s₁.abs netifs h :=
      Stack.ext (Stack.step_netifList cfg _ ev) fun _ => rfl
    have ih := chain_run_refines netifs h s₁ evs hs₁
    obtain ⟨s', hr⟩ := ih.1
    refine ⟨⟨s', .cons _ (ChainStack.step_engine_eq cfg h hs ev) hr⟩, fun s' hr' => ?_⟩
    cases hr' with
    | cons fuel h1 hrest =>
      obtain ⟨rfl, -⟩ := Prod.mk.inj (ChainStack.step_engine_some cfg h hs ev h1)
      rw [Stack.run, habs]
      exact ih.2 s' hrest

/-- One interface, `localMac`, whose `acd_list` is context 0, the end of its chain; every
context zeroed. It holds `soloStack`'s list. -/
def soloChain : ChainStack := ⟨[⟨localMac, some 0⟩], fun _ => none, fun _ => 0, fun _ => Acd.zero⟩

theorem homeOk_soloStack : HomeOk (fun _ => 0) soloStack.netifList := by
  rintro (_ | n) netif hn
  · obtain rfl := Option.some.inj hn
    exact ⟨List.nodup_singleton 0, fun _ _ => rfl⟩
  · simp [soloStack] at hn

theorem soloChain_holds : soloChain.Holds soloStack.netifList := by
  rintro (_ | n)
  · exact .some ⟨rfl, .cons 0 (.nil none)⟩
  · simp only [soloChain, soloStack, List.getElem?_cons_succ, List.getElem?_nil]
    exact .none

theorem chain_run_refines_soloChain :
    HomeOk (fun _ => 0) soloStack.netifList ∧ soloChain.Holds soloStack.netifList ∧
      ∀ evs : List Event, (∃ s', ChainStack.Reaches specConfig soloChain (evs.map .engine) s') ∧
        ∀ s', ChainStack.Reaches specConfig soloChain (evs.map .engine) s' →
          s'.Holds soloStack.netifList ∧
            s'.acds = ((soloChain.abs soloStack.netifList homeOk_soloStack).run specConfig evs).acds :=
  ⟨homeOk_soloStack, soloChain_holds,
    fun evs => chain_run_refines specConfig soloStack.netifList homeOk_soloStack soloChain evs soloChain_holds⟩

end AcdEngine
