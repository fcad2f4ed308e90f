import AcdEngine.Stack
/-!
# The registry: `acd_list` and the `next` fields

acd.c keeps the contexts of an interface as a singly linked list: `netif->acd_list`
points to the first, each `struct acd` to the next through its `next` field, and the
last to `NULL`. `acd_add` puts a context in front unless its loop finds it on the list;
`acd_remove` unlinks it through the context before it, or through `acd_list`. Both
loops, and `ACD_FOREACH` in `acd_tmr`, `acd_arp_reply`, `acd_network_changed_link_down`
and `acd_netif_ip_addr_changed`, follow `next` until `NULL`, and would not stop on a
cycle. Each loop is modelled with a bound on its iterations (`fuel`) and returns `none`
when the chain is longer.

`Seg next p l q`: following `next` from `p` visits the contexts `l` and reaches `q`. A
registry holds the list `l` (`Holds`) when its chain from `acd_list` visits `l`, each
context once, and ends in `NULL`. Every call keeps `Holds`, acting on `l` as a list
operation (`RegCall.apply`), and `ACD_FOREACH` over such a chain is the loop
`acdForeach` over `l` that the engine model runs on `Netif.acdList`.

- `registry_integrity`: from an empty `acd_list`, whatever the `next` fields of the pool
  hold, every sequence of `acd_add` and `acd_remove` calls returns, and leaves a chain
  that ends in `NULL`, has no repeats and holds exactly the contexts added and not
  removed since; re-adding a listed context or removing an unlisted one leaves the chain
  as it is; and `ACD_FOREACH` over the chain returns, running its body once on each
  listed context.
-/

namespace AcdEngine

/-- One interface's registry as acd.c keeps it: `netif->acd_list`, and the `next` and
`acd_conflict_callback` fields of the contexts. A context is named by its address,
`NULL` is `none`, and a callback by a number. -/
structure Registry where
  acdList : Option Nat
  next : Nat → Option Nat
  conflictCallback : Nat → Nat

/-- `Seg next p l q`: following `next` from `p` visits the contexts `l`, in order, and
reaches `q`. A chain that ends in `NULL` is `Seg next p l none`. -/
inductive Seg (next : Nat → Option Nat) : Option Nat → List Nat → Option Nat → Prop
  | nil (p : Option Nat) : Seg next p [] p
  | cons (c : Nat) {l : List Nat} {q : Option Nat} :
      Seg next (next c) l q → Seg next (some c) (c :: l) q

/-- `acd_add`'s `for` loop from `acd2`: is `acd` on the chain? At most `fuel` iterations. -/
def findAcd (next : Nat → Option Nat) (acd : Nat) : Nat → Option Nat → Option Bool
  | _, none => some false
  | 0, some _ => none
  | fuel + 1, some acd2 => if acd2 = acd then some true else findAcd next acd fuel (next acd2)

/-- `acd_add`: set the callback, then link the context in front unless the loop finds
it on the list. -/
def acdAdd (fuel : Nat) (r : Registry) (acd cb : Nat) : Option Registry :=
  let r := { r with conflictCallback := Function.update r.conflictCallback acd cb }
  (findAcd r.next acd fuel r.acdList).map fun found =>
    if found then r
    else { r with next := Function.update r.next acd r.acdList, acdList := some acd }

/-- `acd_remove`'s `for` loop at `acd2`, `prev` the context before it (`none` at the
head): unlink `acd` through `prev->next` or `acd_list`. Off the list the loop ends on
the `LWIP_ASSERT`, with nothing changed. -/
def removeLoop (acd : Nat) : Nat → Option Nat → Option Nat → Registry → Option Registry
  | _, _, none, r => some r
  | 0, _, some _, _ => none
  | fuel + 1, prev, some acd2, r =>
    if acd2 = acd then
      match prev with
      | some p => some { r with next := Function.update r.next p (r.next acd) }
      | none => some { r with acdList := r.next acd }
    else removeLoop acd fuel (some acd2) (r.next acd2) r

/-- `acd_remove`. -/
def acdRemove (fuel : Nat) (r : Registry) (acd : Nat) : Option Registry :=
  removeLoop acd fuel none r.acdList r

/-- `ACD_FOREACH(acd, p) body` over the chain, for at most `fuel` iterations; `none` if
the chain is longer. The bodies of acd.c's loops write no `next` field. -/
def acdForeachChain (next : Nat → Option Nat) (body : Nat → Acd → Acd × List Action) :
    Nat → Option Nat → (Nat → Acd) → Option ((Nat → Acd) × List (Nat × Action))
  | _, none, acds => some (acds, [])
  | 0, some _, _ => none
  | fuel + 1, some p, acds =>
    let r := body p (acds p)
    (acdForeachChain next body fuel (next p) (Function.update acds p r.1)).map
      fun rest => (rest.1, r.2.map (p, ·) ++ rest.2)

/-- A call on one interface's registry. -/
inductive RegCall where
  | acdAdd (acd cb : Nat)
  | acdRemove (acd : Nat)
  deriving DecidableEq, Repr

namespace RegCall

/-- The call, its loop bounded by `fuel`. -/
def run (fuel : Nat) (r : Registry) : RegCall → Option Registry
  | .acdAdd acd cb => AcdEngine.acdAdd fuel r acd cb
  | .acdRemove acd => AcdEngine.acdRemove fuel r acd

/-- What the call does to the list of registered contexts. -/
def apply (l : List Nat) : RegCall → List Nat
  | .acdAdd acd _ => if acd ∈ l then l else acd :: l
  | .acdRemove acd => l.erase acd

end RegCall

/-- `Reaches r cs r'`: the calls `cs`, made in turn from `r`, each return, the last
leaving `r'`. -/
inductive Reaches : Registry → List RegCall → Registry → Prop
  | nil (r : Registry) : Reaches r [] r
  | cons {r r' r'' : Registry} {c : RegCall} {cs : List RegCall} (fuel : Nat) :
      c.run fuel r = some r' → Reaches r' cs r'' → Reaches r (c :: cs) r''

/-- The registry holds the contexts `l`: its chain from `acd_list` visits `l`, each
context once, and ends in `NULL`. -/
structure Holds (r : Registry) (l : List Nat) : Prop where
  seg : Seg r.next r.acdList l none
  nodup : l.Nodup

/-- Context `acd` was added by one of the calls `cs` and not removed by a later one. -/
def AddedNotRemoved (cs : List RegCall) (acd : Nat) : Prop :=
  ∃ pre cb post, cs = pre ++ .acdAdd acd cb :: post ∧ .acdRemove acd ∉ post

/-! ## Chains -/

namespace Seg

variable {next next' : Nat → Option Nat} {p q : Option Nat} {l : List Nat}

theorem nil_inv (h : Seg next p [] q) : p = q := by
  cases h; rfl

theorem cons_inv {c : Nat} (h : Seg next p (c :: l) q) : p = some c ∧ Seg next (next c) l q := by
  cases h with
  | cons _ h => exact ⟨rfl, h⟩

theorem append {l' : List Nat} {q' : Option Nat} (h : Seg next p l q) (h' : Seg next q l' q') :
    Seg next p (l ++ l') q' := by
  induction h with
  | nil => exact h'
  | cons c _ ih => exact .cons c (ih h')

theorem split {l' : List Nat} (h : Seg next p (l ++ l') q) :
    ∃ m, Seg next p l m ∧ Seg next m l' q := by
  induction l generalizing p with
  | nil => exact ⟨p, .nil p, h⟩
  | cons c l ih =>
    rw [List.cons_append] at h
    obtain ⟨rfl, hn⟩ := h.cons_inv
    obtain ⟨m, h1, h2⟩ := ih hn
    exact ⟨m, .cons c h1, h2⟩

/-- A chain depends only on the `next` fields of the contexts it visits. -/
theorem congr (h : Seg next p l q) (hc : ∀ c ∈ l, next' c = next c) : Seg next' p l q := by
  induction h with
  | nil => exact .nil _
  | cons c _ ih =>
    refine .cons c ?_
    rw [hc c (List.mem_cons_self _ _)]
    exact ih fun c' h' => hc c' (List.mem_cons_of_mem _ h')

/-- Writing the `next` field of a context off the chain keeps it. -/
theorem update_out {c : Nat} {v : Option Nat} (h : Seg next p l q) (hc : c ∉ l) :
    Seg (Function.update next c v) p l q :=
  h.congr fun c' h' => Function.update_noteq (fun e : c' = c => hc (e ▸ h')) _ _

/-- Pointing the `next` field of `pv`, the context before `c`, past `c` unlinks `c`. -/
theorem unlink {pre rest : List Nat} {pv c : Nat} (h : Seg next p (pre ++ [pv]) (some c))
    (h' : Seg next (next c) rest none) (hpre : pv ∉ pre) (hrest : pv ∉ rest) :
    Seg (Function.update next pv (next c)) p (pre ++ pv :: rest) none := by
  obtain ⟨m, h1, h2⟩ := h.split
  obtain ⟨rfl, -⟩ := h2.cons_inv
  exact (h1.update_out hpre).append
    (.cons pv (by rw [Function.update_same]; exact h'.update_out hrest))

end Seg

/-! ## The loops over a chain -/

section Loops

variable {next : Nat → Option Nat} {p : Option Nat} {l : List Nat}

/-- `acd_add`'s loop answers whether `acd` is on the chain, whenever it returns. -/
theorem findAcd_some {acd fuel : Nat} {b : Bool} (h : Seg next p l none)
    (hf : findAcd next acd fuel p = some b) : b = decide (acd ∈ l) := by
  induction l generalizing p fuel with
  | nil => obtain rfl := h.nil_inv; cases fuel <;> exact (Option.some.inj hf).symm
  | cons c l ih =>
    obtain ⟨rfl, hn⟩ := h.cons_inv
    cases fuel with
    | zero => cases hf
    | succ fuel =>
      simp only [findAcd] at hf
      split_ifs at hf with hc
      · cases hf; simp [hc]
      · simp [ih hn hf, Ne.symm hc]

/-- With more iterations than the chain is long, `acd_add`'s loop returns. -/
theorem findAcd_isSome (acd : Nat) {fuel : Nat} (h : Seg next p l none) (hf : l.length < fuel) :
    (findAcd next acd fuel p).isSome := by
  induction l generalizing p fuel with
  | nil => obtain rfl := h.nil_inv; cases fuel <;> rfl
  | cons c l ih =>
    obtain ⟨rfl, hn⟩ := h.cons_inv
    cases fuel with
    | zero => cases hf
    | succ fuel =>
      simp only [findAcd]
      split_ifs
      · rfl
      · exact ih hn (Nat.lt_of_succ_lt_succ hf)

/-- `ACD_FOREACH` over a chain that ends in `NULL` returns within as many iterations as
the chain is long, and is the loop over the list of the contexts it visits. -/
theorem acdForeachChain_eq (body : Nat → Acd → Acd × List Action) {fuel : Nat}
    (h : Seg next p l none) (hf : l.length ≤ fuel) (acds : Nat → Acd) :
    acdForeachChain next body fuel p acds = some (acdForeach body l acds) := by
  induction l generalizing p fuel acds with
  | nil => obtain rfl := h.nil_inv; cases fuel <;> rfl
  | cons c l ih =>
    obtain ⟨rfl, hn⟩ := h.cons_inv
    cases fuel with
    | zero => cases hf
    | succ fuel =>
      simp only [acdForeachChain, acdForeach, ih hn (Nat.le_of_succ_le_succ hf), Option.map_some']

/-- Whenever `ACD_FOREACH` over a chain that ends in `NULL` returns, it is the loop over
the list of the contexts it visits. -/
theorem acdForeachChain_some {body : Nat → Acd → Acd × List Action} {fuel : Nat}
    {acds : Nat → Acd} {res : (Nat → Acd) × List (Nat × Action)} (h : Seg next p l none)
    (hr : acdForeachChain next body fuel p acds = some res) : res = acdForeach body l acds := by
  induction l generalizing p fuel acds res with
  | nil => obtain rfl := h.nil_inv; cases fuel <;> exact (Option.some.inj hr).symm
  | cons c l ih =>
    obtain ⟨rfl, hn⟩ := h.cons_inv
    cases fuel with
    | zero => cases hr
    | succ fuel =>
      simp only [acdForeachChain, Option.map_eq_some'] at hr
      obtain ⟨rest, hrest, rfl⟩ := hr
      rw [ih hn hrest]
      rfl

end Loops

/-! ## Each call keeps the chain -/

section Calls

variable {r r' : Registry} {l : List Nat}

theorem holds_empty (next : Nat → Option Nat) (cbs : Nat → Nat) : Holds ⟨none, next, cbs⟩ [] :=
  ⟨.nil none, List.nodup_nil⟩

/-- `acd_add` returns given enough iterations. Whenever it returns, the registry holds
the list with the context in front, or the same list if it was there; and then its chain
is unchanged. -/
theorem acdAdd_holds (hr : Holds r l) (acd cb : Nat) :
    (∀ fuel, l.length < fuel → ∃ r', acdAdd fuel r acd cb = some r') ∧
    ∀ fuel r', acdAdd fuel r acd cb = some r' →
      Holds r' ((RegCall.acdAdd acd cb).apply l) ∧
        (acd ∈ l → r'.acdList = r.acdList ∧ r'.next = r.next) := by
  refine ⟨fun fuel hf => ?_, fun fuel r' h => ?_⟩
  · obtain ⟨b, hb⟩ := Option.isSome_iff_exists.1 (findAcd_isSome acd hr.seg hf)
    simp only [acdAdd, hb, Option.map_some', Option.some.injEq, exists_eq']
  · simp only [acdAdd, Option.map_eq_some'] at h
    obtain ⟨b, hb, rfl⟩ := h
    rw [findAcd_some hr.seg hb]
    by_cases hl : acd ∈ l
    · simp only [RegCall.apply, hl, if_true, decide_True]
      exact ⟨⟨hr.1, hr.2⟩, by simp⟩
    · simp only [RegCall.apply, hl, decide_False, if_false, Bool.false_eq_true, false_imp_iff,
        and_true]
      exact ⟨.cons acd (by simpa using hr.seg.update_out hl), List.nodup_cons.2 ⟨hl, hr.nodup⟩⟩

/-- `acd_remove`'s loop, having passed the contexts `pre` (`prev` the last of them) and
with `rest` ahead: given enough iterations it returns, and whenever it returns the
registry holds the list without `acd`, or is unchanged if `acd` is not ahead. -/
theorem removeLoop_holds {acd : Nat} :
    ∀ {pre : List Nat} {prev p : Option Nat} {rest : List Nat} (fuel : Nat),
      (pre ++ rest).Nodup → Seg r.next r.acdList pre p → prev = pre.getLast? →
      Seg r.next p rest none → acd ∉ pre →
      (rest.length < fuel → (removeLoop acd fuel prev p r).isSome) ∧
      ∀ r', removeLoop acd fuel prev p r = some r' →
        Holds r' ((pre ++ rest).erase acd) ∧ (acd ∉ rest → r' = r)
  | pre, prev, p, [], fuel, hnd, hpre, _, hrest, hacd => by
    obtain rfl := hrest.nil_inv
    have h0 : removeLoop acd fuel prev none r = some r := by cases fuel <;> rfl
    rw [List.append_nil] at hnd ⊢
    rw [h0, List.erase_of_not_mem hacd]
    exact ⟨fun _ => rfl, fun r' h => by cases h; exact ⟨⟨hpre, hnd⟩, fun _ => rfl⟩⟩
  | pre, prev, p, c :: rest, 0, _, _, _, hrest, _ => by
    obtain ⟨rfl, -⟩ := hrest.cons_inv
    exact ⟨fun h => absurd h (Nat.not_lt_zero _), fun r' h => nomatch h⟩
  | pre, prev, p, c :: rest, fuel + 1, hnd, hpre, hprev, hrest, hacd => by
    obtain ⟨rfl, hnext⟩ := hrest.cons_inv
    by_cases hc : c = acd
    · subst hc
      have herase : (pre ++ c :: rest).erase c = pre ++ rest := by
        rw [List.erase_append_right _ hacd, List.erase_cons_head]
      have hnd' : (pre ++ rest).Nodup := herase ▸ hnd.erase c
      simp only [removeLoop, ↓reduceIte, herase]
      refine ⟨fun _ => by cases prev <;> rfl,
        fun r' h => ⟨?_, fun h' => absurd (List.mem_cons_self c rest) h'⟩⟩
      obtain rfl | ⟨pre', pv, rfl⟩ : pre = [] ∨ ∃ pre' pv, pre = pre' ++ [pv] := by
        simpa only [List.concat_eq_append] using pre.eq_nil_or_concat
      · -- the head: `netif->acd_list = acd->next`
        obtain rfl : prev = none := hprev
        obtain rfl := Option.some.inj h
        exact ⟨hnext, hnd'⟩
      · -- `prev->next = acd->next`
        obtain rfl : prev = some pv := by simp [hprev]
        obtain rfl := Option.some.inj h
        rw [List.append_assoc, List.singleton_append] at hnd' ⊢
        have hpv : pv ∉ pre' ∧ pv ∉ rest := by
          simpa [not_or] using (List.nodup_cons.1 (List.nodup_middle.1 hnd')).1
        exact ⟨hpre.unlink hnext hpv.1 hpv.2, hnd'⟩
    · have ih := removeLoop_holds fuel (by simpa using hnd) (hpre.append (.cons c (.nil _)))
        (by simp : some c = (pre ++ [c]).getLast?) hnext
        (by simp [hacd, Ne.symm hc] : acd ∉ pre ++ [c])
      simp only [removeLoop, if_neg hc, List.append_assoc, List.singleton_append] at ih ⊢
      refine ⟨fun hf => ih.1 (by simp at hf; omega), fun r' h => ?_⟩
      obtain ⟨h1, h2⟩ := ih.2 r' h
      exact ⟨h1, fun h' => h2 fun h'' => h' (List.mem_cons_of_mem _ h'')⟩

/-- `acd_remove` returns given enough iterations. Whenever it returns, the registry
holds the list without the context, and is unchanged if the context was not on it. -/
theorem acdRemove_holds (hr : Holds r l) (acd : Nat) :
    (∀ fuel, l.length < fuel → ∃ r', acdRemove fuel r acd = some r') ∧
    ∀ fuel r', acdRemove fuel r acd = some r' →
      Holds r' ((RegCall.acdRemove acd).apply l) ∧ (acd ∉ l → r' = r) := by
  have h := fun fuel => @removeLoop_holds r acd [] none r.acdList l fuel
    (by simpa using hr.nodup) (.nil _) rfl hr.seg (List.not_mem_nil _)
  exact ⟨fun fuel hf => Option.isSome_iff_exists.1 ((h fuel).1 hf),
    fun fuel r' h' => by simpa [RegCall.apply] using (h fuel).2 r' h'⟩

/-- `acd_add` writes the `next` field of the added context only. -/
theorem acdAdd_next {fuel acd cb c : Nat} (h : acdAdd fuel r acd cb = some r') (hc : c ≠ acd) :
    r'.next c = r.next c := by
  simp only [acdAdd, Option.map_eq_some'] at h
  obtain ⟨b, -, rfl⟩ := h
  split
  · rfl
  · exact Function.update_noteq hc _ _

/-- `acd_remove`'s loop writes the `next` field of `prev` or of a context ahead of it
only. -/
theorem removeLoop_next {acd c : Nat} :
    ∀ {prev p : Option Nat} {rest : List Nat} (fuel : Nat), Seg r.next p rest none →
      prev ≠ some c → c ∉ rest → removeLoop acd fuel prev p r = some r' → r'.next c = r.next c
  | prev, p, [], fuel, hrest, _, _, h => by
    obtain rfl := hrest.nil_inv
    cases fuel <;> (cases h; rfl)
  | prev, p, c' :: rest, 0, hrest, _, _, h => by
    obtain ⟨rfl, -⟩ := hrest.cons_inv
    cases h
  | prev, p, c' :: rest, fuel + 1, hrest, hprev, hc, h => by
    obtain ⟨rfl, hnext⟩ := hrest.cons_inv
    simp only [removeLoop] at h
    split_ifs at h
    · cases prev with
      | none => cases h; rfl
      | some pv => cases h; exact Function.update_noteq (fun e => hprev (by rw [e])) _ _
    · exact removeLoop_next fuel hnext (fun e => hc (by cases e; exact List.mem_cons_self _ _))
        (fun h' => hc (List.mem_cons_of_mem _ h')) h

/-- `acd_remove` writes the `next` field of a listed context only. -/
theorem acdRemove_next (hr : Holds r l) {fuel acd c : Nat} (h : acdRemove fuel r acd = some r')
    (hc : c ∉ l) : r'.next c = r.next c :=
  @removeLoop_next r r' acd c none r.acdList l fuel hr.seg (by simp) hc h

/-- Every call returns given enough iterations, and whenever it returns, the registry
holds what the call does to the list. -/
theorem RegCall.run_holds (hr : Holds r l) (c : RegCall) :
    (∃ r', c.run (l.length + 1) r = some r') ∧
      ∀ fuel r', c.run fuel r = some r' → Holds r' (c.apply l) := by
  cases c with
  | acdAdd acd cb =>
    exact ⟨(acdAdd_holds hr acd cb).1 _ (Nat.lt_succ_self _),
      fun fuel r' h => ((acdAdd_holds hr acd cb).2 fuel r' h).1⟩
  | acdRemove acd =>
    exact ⟨(acdRemove_holds hr acd).1 _ (Nat.lt_succ_self _),
      fun fuel r' h => ((acdRemove_holds hr acd).2 fuel r' h).1⟩

/-- A call writes no `next` field outside its list, but that of the context it adds. -/
theorem RegCall.run_next (hr : Holds r l) {c : RegCall} {fuel c' : Nat}
    (h : c.run fuel r = some r') (hl : c' ∉ l) (ha : ∀ acd cb, c = .acdAdd acd cb → c' ≠ acd) :
    r'.next c' = r.next c' := by
  cases c with
  | acdAdd acd cb => exact acdAdd_next h (ha acd cb rfl)
  | acdRemove acd => exact acdRemove_next hr h hl

/-- Along calls that return, the registry holds what the calls do to the list. -/
theorem Reaches.holds {cs : List RegCall} (h : Reaches r cs r') (hr : Holds r l) :
    Holds r' (cs.foldl RegCall.apply l) := by
  induction h generalizing l with
  | nil => exact hr
  | cons fuel hc _ ih => exact ih ((RegCall.run_holds hr _).2 fuel _ hc)

end Calls

/-- From a registry that holds a list, every sequence of calls returns. -/
theorem reaches_of_holds : ∀ {r : Registry} {l : List Nat} (cs : List RegCall), Holds r l →
    ∃ r', Reaches r cs r'
  | r, _, [], _ => ⟨r, .nil r⟩
  | _, _, c :: cs, hr =>
    let ⟨_, h1⟩ := (RegCall.run_holds hr c).1
    let ⟨r', h⟩ := reaches_of_holds cs ((RegCall.run_holds hr c).2 _ _ h1)
    ⟨r', .cons _ h1 h⟩

/-! ## Which contexts are listed -/

theorem RegCall.apply_nodup {l : List Nat} (hl : l.Nodup) (c : RegCall) : (c.apply l).Nodup := by
  cases c with
  | acdAdd acd cb =>
    by_cases h : acd ∈ l <;> simp [apply, h, hl]
  | acdRemove acd => exact hl.erase acd

theorem addedNotRemoved_cons (c : RegCall) (cs : List RegCall) (acd : Nat) :
    AddedNotRemoved (c :: cs) acd ↔
      (∃ cb, c = .acdAdd acd cb ∧ .acdRemove acd ∉ cs) ∨ AddedNotRemoved cs acd := by
  constructor
  · rintro ⟨pre, cb, post, h, hpost⟩
    cases pre with
    | nil =>
      obtain ⟨rfl, rfl⟩ := List.cons.inj h
      exact .inl ⟨cb, rfl, hpost⟩
    | cons x pre =>
      obtain ⟨rfl, rfl⟩ := List.cons.inj h
      exact .inr ⟨pre, cb, post, rfl, hpost⟩
  · rintro (⟨cb, rfl, hcs⟩ | ⟨pre, cb, post, rfl, hpost⟩)
    · exact ⟨[], cb, cs, rfl, hcs⟩
    · exact ⟨c :: pre, cb, post, rfl, hpost⟩

/-- A context is listed after the calls if it was listed before and never removed, or
was added and not removed since. -/
theorem mem_foldl_apply (acd : Nat) :
    ∀ (cs : List RegCall) {l : List Nat}, l.Nodup →
      (acd ∈ cs.foldl RegCall.apply l ↔
        (acd ∈ l ∧ .acdRemove acd ∉ cs) ∨ AddedNotRemoved cs acd)
  | [], _, _ => by simp [AddedNotRemoved]
  | c :: cs, l, hl => by
    rw [List.foldl_cons, mem_foldl_apply acd cs (c.apply_nodup hl), addedNotRemoved_cons]
    cases c with
    | acdAdd a cb =>
      have hadd : acd ∈ RegCall.apply l (.acdAdd a cb) ↔ acd = a ∨ acd ∈ l := by
        show acd ∈ (if a ∈ l then l else a :: l) ↔ _
        split_ifs with h
        · exact ⟨Or.inr, (·.elim (· ▸ h) id)⟩
        · exact List.mem_cons
      have hrm : RegCall.acdRemove acd ∉ RegCall.acdAdd a cb :: cs ↔ RegCall.acdRemove acd ∉ cs := by
        simp
      rw [hadd, hrm]
      rcases eq_or_ne acd a with rfl | e
      · simp only [true_or, true_and]
        constructor
        · rintro (h | h)
          · exact .inr (.inl ⟨cb, rfl, h⟩)
          · exact .inr (.inr h)
        · rintro (⟨-, h⟩ | ⟨-, -, h⟩ | h)
          · exact .inl h
          · exact .inl h
          · exact .inr h
      · simp [e, Ne.symm e]
    | acdRemove a =>
      simp only [RegCall.apply, hl.mem_erase_iff, List.mem_cons, RegCall.acdRemove.injEq,
        reduceCtorEq, false_and, exists_false, false_or]
      rw [not_or, and_left_comm, and_assoc]

instance (cs : List RegCall) (acd : Nat) : Decidable (AddedNotRemoved cs acd) :=
  decidable_of_iff (acd ∈ cs.foldl RegCall.apply [])
    (by simpa using mem_foldl_apply acd cs List.nodup_nil)

/-! ## Integrity -/

/-- Registry list integrity for the calls `cs`, made on an interface whose `acd_list`
starts `NULL`, whatever the `next` and callback fields of the pool hold: the calls
return, and after them the chain from `acd_list` ends in `NULL`, has no repeats, and
holds exactly the contexts added and not removed since; `acd_add` of a listed context
and `acd_remove` of an unlisted one leave the chain as it is; and `ACD_FOREACH` over it
returns within as many iterations as there are listed contexts, as the loop over their
list, running its body once on each of them, from its state before the loop, and
leaving the others alone. -/
def RegistryIntegrity (next : Nat → Option Nat) (cbs : Nat → Nat) (cs : List RegCall) : Prop :=
  (∃ r, Reaches ⟨none, next, cbs⟩ cs r) ∧
  ∀ r, Reaches ⟨none, next, cbs⟩ cs r →
    ∃ l, Seg r.next r.acdList l none ∧ l.Nodup ∧ (∀ acd, acd ∈ l ↔ AddedNotRemoved cs acd) ∧
      (∀ acd cb fuel r', AddedNotRemoved cs acd → acdAdd fuel r acd cb = some r' →
        r'.acdList = r.acdList ∧ r'.next = r.next) ∧
      (∀ acd fuel r', ¬ AddedNotRemoved cs acd → acdRemove fuel r acd = some r' → r' = r) ∧
      ∀ body acds, acdForeachChain r.next body l.length r.acdList acds = some (acdForeach body l acds) ∧
        ∀ q, ((acdForeach body l acds).1 q, outputsOf q (acdForeach body l acds).2) =
          if AddedNotRemoved cs q then body q (acds q) else (acds q, [])

/-- Registry list integrity: every sequence of calls on an interface keeps it. -/
theorem registry_integrity (next : Nat → Option Nat) (cbs : Nat → Nat) (cs : List RegCall) :
    RegistryIntegrity next cbs cs := by
  refine ⟨reaches_of_holds cs (holds_empty next cbs), fun r hr => ?_⟩
  have hl := hr.holds (holds_empty next cbs)
  have hmem : ∀ acd, acd ∈ cs.foldl RegCall.apply [] ↔ AddedNotRemoved cs acd := fun acd => by
    simpa using mem_foldl_apply acd cs List.nodup_nil
  refine ⟨_, hl.seg, hl.nodup, hmem,
    fun acd cb fuel r' h h' => ((acdAdd_holds hl acd cb).2 fuel r' h').2 ((hmem acd).2 h),
    fun acd fuel r' h h' => ((acdRemove_holds hl acd).2 fuel r' h').2 (mt (hmem acd).1 h),
    fun body acds => ⟨acdForeachChain_eq body hl.seg le_rfl acds, fun q => ?_⟩⟩
  rw [acdForeach_at q _ _ hl.nodup]
  exact if_congr (hmem q) rfl rfl

end AcdEngine
