import LateBinding.Proofs.SiteCounters
import LateBinding.Proofs.TwinRegistries

/-!
# The accounts of an engine

Sites and the resolver count what they do in many places, and the counts are read by the policy and
in reports. Here a ledger is kept beside a run, which notes from outside what happened: the calls
and resets of each site, and the resolutions that were asked for. All counts agree with it.

* `Operation.asks?`: when an operation enters the resolver, and for a receiver of which class.
* `Ledger` and `Kept`: what is noted, operation by operation.
* `Table.sum`: sums over tables, for the resolutions of all numbered sites.
* `Reachable.accounts`: the balances of sites, resolver, memo and metrics.
-/

namespace LateBinding

/-! ## Sums over tables -/

namespace Table

variable {κ ν : Type} {t : Table κ ν} {f : κ → ν → Nat} {k : κ} {v : ν}

/-- The sum of a number over all that is in a table. -/
def sum (t : Table κ ν) (f : κ → ν → Nat) : Nat := t.entries.foldr (fun p n => f p.1 p.2 + n) 0

variable [DecidableEq κ]

/-- A value takes the place of the one that was there. -/
theorem sum_insert :
    (t.insert k v).sum f + ((t.get? k).map (f k)).getD 0 = t.sum f + f k v := by
  obtain ⟨entries⟩ := t
  simp only [sum, insert, get?]
  induction entries with
  | nil => simp [put, find]
  | cons p rest ih =>
    obtain ⟨k', v'⟩ := p
    by_cases hk : k' = k
    -- the entry of `k` gives way, so its number leaves the sum as the new one enters
    · subst hk
      simp [put, find]
      omega
    · simp only [put, find, if_neg hk, List.foldr_cons]
      omega

theorem sum_insert_of_some {old : ν} (hk : t.get? k = some old) :
    (t.insert k v).sum f + f k old = t.sum f + f k v := by
  have h := sum_insert (t := t) (f := f) (k := k) (v := v)
  rwa [hk] at h

theorem sum_insert_of_none (hk : t.get? k = none) :
    (t.insert k v).sum f = t.sum f + f k v := by
  have h := sum_insert (t := t) (f := f) (k := k) (v := v)
  rwa [hk] at h

theorem keys_insert : (t.insert k v).keys = if k ∈ t.keys then t.keys else t.keys ++ [k] := by
  obtain ⟨entries⟩ := t
  simp only [keys, insert]
  induction entries with
  | nil => simp [put]
  | cons p rest ih =>
    obtain ⟨k', v'⟩ := p
    by_cases hk : k' = k
    · simp [put, hk]
    · by_cases hmem : k ∈ rest.map (·.1)
      · simp [put, hk, ih, hmem]
      · simp [put, hk, ih, hmem, Ne.symm hk]

theorem size_insert_le (t : Table κ ν) (k : κ) (v : ν) : (t.insert k v).size ≤ t.size + 1 := by
  have hlength : ∀ t : Table κ ν, t.size = t.keys.length := by
    intro t
    simp [size, keys]
  rw [hlength, hlength, keys_insert]
  split
  · omega
  · simp

theorem nodup_keys_insert (ht : t.keys.Nodup) : (t.insert k v).keys.Nodup := by
  rw [keys_insert]
  split
  · exact ht
  · next hk => simpa using ht.concat hk

theorem nodup_keys_erase (ht : t.keys.Nodup) : (t.erase k).keys.Nodup :=
  ht.sublist (List.filter_sublist.map _)

/-- What is forgotten is subtracted, once if it was there once. -/
theorem sum_erase (ht : t.keys.Nodup) :
    (t.erase k).sum f + ((t.get? k).map (f k)).getD 0 = t.sum f := by
  obtain ⟨entries⟩ := t
  simp only [sum, erase, get?, keys] at ht ⊢
  induction entries with
  | nil => simp [find]
  | cons p rest ih =>
    obtain ⟨k', v'⟩ := p
    obtain ⟨hnew, hrest⟩ := List.nodup_cons.mp ht
    by_cases hk : k' = k
    -- a key stands once, so nothing of it is left behind its first entry
    · subst hk
      have hnone := find_eq_none_iff.mpr hnew
      have hsame := ih hrest
      rw [hnone] at hsame
      simp [find] at hsame ⊢
      omega
    · have := ih hrest
      simp [find, hk] at this ⊢
      omega

end Table

/-! ## What the resolver counts -/

namespace Resolver

variable {β : Type} {q : Resolver β} {access : Access} {receiver : Receiver} {name : String}
  {args : ArgShape}

/-- The memo has no more entries than room, and none if nothing is to be remembered. -/
structure Roomy (q : Resolver β) : Prop where
  room : 1 ≤ q.memoCapacity
  size_le : q.memo.size ≤ q.memoCapacity
  off : q.memoize = false → q.memo.size = 0

/-- A resolution is counted as such, and as a lookup or a memory if its receiver's class is
declared. -/
structure Answered (q : Resolver β) (c : ClassRef) (q' : Resolver β) : Prop where
  invocations : q'.invocations = q.invocations + 1
  found : q'.fullResolutions + q'.memoHits =
    q.fullResolutions + q.memoHits + if q.registry.hierarchy.Declares c then 1 else 0
  memoize : q'.memoize = q.memoize
  memoCapacity : q'.memoCapacity = q.memoCapacity
  roomy : q.Roomy → q'.Roomy

theorem memoKey?_of_off (hoff : q.memoize = false) :
    q.memoKey? access receiver name args = none := by
  unfold memoKey?
  rw [hoff]

/-- Remembering changes the memo only. -/
theorem remember_eq (q : Resolver β) (key : Option MemoKey) (version : Nat) (t : Target β) :
    ∃ memo, q.remember key version t = { q with memo } := by
  cases key with
  | none => exact ⟨q.memo, rfl⟩
  | some k => exact ⟨_, rfl⟩

theorem Roomy.remember (hq : q.Roomy) (key : Option MemoKey) (version : Nat) (t : Target β)
    (hkey : q.memoize = false → key = none) : (q.remember key version t).Roomy := by
  cases key with
  | none => exact hq
  | some k =>
    have hroom := hq.room
    refine ⟨hroom, ?_, fun hoff => absurd (hkey hoff) nofun⟩
    show ((if q.memoCapacity ≤ q.memo.size then Table.empty else q.memo).insert k _).size ≤ _
    -- a full memo is emptied before it takes the entry, one that is not full has room for it
    split
    · exact Nat.le_trans (Table.size_insert_le _ _ _) hroom
    · have := q.memo.size_insert_le k ⟨version, t⟩
      show (q.memo.insert k _).size ≤ q.memoCapacity
      omega

/-- A resolution is answered whether or not it succeeds. Only declared classes have cells, so a
class that has one is no stranger. -/
theorem answered_resolve (hq : q.registry.Housed) (access : Access) (receiver : Receiver)
    (name : String) (args : ArgShape) :
    q.Answered receiver.cls (q.resolve access receiver name args).2 := by
  have hout := q.resolve_outcome access receiver name args
  generalize q.resolve access receiver name args = out at hout
  cases hout with
  | unknown hmat =>
    -- the registry looks up any class that it declares, so this one is a stranger
    have hc : ¬ q.registry.hierarchy.Declares receiver.cls := by
      intro hc
      obtain ⟨info, hfind⟩ := hc.find
      unfold Registry.materialize at hmat
      rw [hfind] at hmat
      split at hmat <;> cases hmat
    exact ⟨rfl, by simp [hc], rfl, rfl, fun h => ⟨h.room, h.size_le, h.off⟩⟩
  | remembered hmat =>
    have hc := (hq.materialize hmat).2
    exact ⟨rfl, by simp [hc]; omega, rfl, rfl, fun h => ⟨h.room, h.size_le, h.off⟩⟩
  | failed hmat =>
    have hc := (hq.materialize hmat).2
    exact ⟨rfl, by simp [hc]; omega, rfl, rfl, fun h => ⟨h.room, h.size_le, h.off⟩⟩
  | @found r t hmat =>
    have hc := (hq.materialize hmat).2
    -- remembering changes nothing but the memo
    obtain ⟨memo, hmemo⟩ := remember_eq
      { q with
        registry := r.materializeAll (r.hierarchy.chain receiver.cls)
        invocations := q.invocations + 1
        fullResolutions := q.fullResolutions + 1 }
      (q.memoKey? access receiver name args) (Guard.ofReceiver r receiver).version t
    dsimp only
    refine ⟨by rw [hmemo], ?_, by rw [hmemo], by rw [hmemo], fun h => ?_⟩
    · rw [hmemo]
      simp [hc]
      omega
    · have hroomy : Roomy { q with
          registry := r.materializeAll (r.hierarchy.chain receiver.cls)
          invocations := q.invocations + 1
          fullResolutions := q.fullResolutions + 1 } := ⟨h.room, h.size_le, h.off⟩
      exact hroomy.remember _ _ t memoKey?_of_off

end Resolver

namespace Engine

variable {β : Type} {g : Engine β} {op : Operation β} {key : SiteKey} {s s' : Site β}

/-! ## The ledger -/

/-- The class of the receiver for which an operation enters the resolver, if it does: a call
through a site does so unless the site serves it. -/
def Operation.asks? (op : Operation β) (g : Engine β) : Option ClassRef :=
  match op with
  | .resolve _ receiver _ _ => some receiver.classOf
  | .dispatch key receiver args =>
    match g.sites.get? key with
    | some s =>
      if s.serves g.registry (.ofCall g.registry receiver args) then none
      else some receiver.classOf
    | none => none
  | _ => none

/-- The operation is a call through a numbered site. -/
def Operation.isNumbered : Operation β → Bool
  | .dispatch (.numbered _) .. => true
  | _ => false

/-- What an operation does to a site that is there, if it calls or resets it. -/
def Operation.event? (op : Operation β) (g : Engine β) (key : SiteKey) (s : Site β) :
    Option Site.Event :=
  match op, key with
  | .dispatch key' receiver args, key =>
    if key' = key then
      some (.call (s.serves g.registry (.ofCall g.registry receiver args)))
    else none
  | .resetSite key', key =>
    if key' = key then some (.reset s.calls (s.phase = .frozen)) else none
  | .resetSites, .numbered _ => some (.reset s.calls (s.phase = .frozen))
  | _, _ => none

/-- The resolutions that a numbered site has counted when an operation drops it. -/
def Operation.dropped (op : Operation β) (g : Engine β) : Nat :=
  match op with
  | .drop (.numbered id) => ((g.sites.get? (.numbered id)).map (·.resolutions)).getD 0
  | _ => 0

/-- What is noted beside a run. -/
structure Ledger where
  /-- The calls and resets of each site since it was created, the latest first. -/
  diary : SiteKey → List Site.Event
  /-- Resolutions asked for receivers whose class is not declared. -/
  strangers : Nat
  /-- Resolutions asked for otherwise than by a numbered site. -/
  elsewhere : Nat
  /-- Resolutions that numbered sites had counted when they were dropped. -/
  dropped : Nat

/-- The ledger with a note of what an operation does. A site that is not there yet has an empty
diary. -/
def Ledger.note (l : Ledger) (g : Engine β) (op : Operation β) : Ledger where
  diary key :=
    match g.sites.get? key with
    | some s => (op.event? g key s).toList ++ l.diary key
    | none => []
  strangers := l.strangers +
    if (op.asks? g).any (¬ g.registry.hierarchy.Declares ·) then 1 else 0
  elsewhere := l.elsewhere + if (op.asks? g).isSome ∧ ¬ op.isNumbered then 1 else 0
  dropped := l.dropped + op.dropped g

/-- The ledger was kept from the start of a run to the engine it led to. -/
inductive Kept : Engine β → Ledger → Prop
  | fresh (settings : Settings) : Kept (build settings) ⟨fun _ => [], 0, 0, 0⟩
  | perform {g : Engine β} {l : Ledger} (h : Kept g l) (op : Operation β) :
    Kept (g.perform op) (l.note g op)

theorem Kept.reachable {l : Ledger} (h : Kept g l) : g.Reachable := by
  induction h with
  | fresh settings => exact ⟨settings, .refl⟩
  | perform _ op ih => exact ih.perform trivial

theorem Reachable.kept (hg : g.Reachable) : ∃ l, Kept g l :=
  hg.invariant (P := fun g => ∃ l, Kept g l) (fun settings => ⟨_, .fresh settings⟩)
    fun _ op _ ⟨_, h⟩ => ⟨_, h.perform op⟩

/-! ## Sites -/

/-- What an operation does to a site agrees with what is noted of it. -/
theorem balanced_perform (hg : g.Unused) {diary : List Site.Event} (h : s.Balanced diary)
    (hs : g.sites.get? key = some s) (hs' : (g.perform op).sites.get? key = some s') :
    s'.Balanced ((op.event? g key s).toList ++ diary) := by
  rw [get?_perform] at hs'
  -- only operations on the key of the site, and a reset of all sites, reach it
  cases op with
  | openSite id access name =>
    simp only [Operation.siteAfter, hs, Option.getD_some, ite_self] at hs'
    cases hs'
    exact h
  | attach id access name capacity =>
    -- a new detached site takes the next serial, which no site has yet
    have hne : SiteKey.detached g.nextSerial ≠ key := by
      rintro rfl
      rw [hg g.nextSerial (Nat.le_refl _)] at hs
      cases hs
    simp only [Operation.siteAfter, if_neg hne, hs] at hs'
    cases hs'
    exact h
  | drop key' =>
    simp only [Operation.siteAfter, hs] at hs'
    split at hs'
    · cases hs'
    · cases hs'
      exact h
  | dispatch key' receiver args =>
    simp only [Operation.siteAfter, hs] at hs'
    split at hs'
    · next hkey =>
      cases hs'
      simp only [Operation.event?, if_pos hkey]
      exact h.call (Site.counted_dispatchShape ..)
    · next hkey =>
      cases hs'
      simpa [Operation.event?, hkey] using h
  | resetSite key' =>
    simp only [Operation.siteAfter, hs] at hs'
    split at hs'
    · next hkey =>
      cases hs'
      simp only [Operation.event?, if_pos hkey]
      exact h.reset
    · next hkey =>
      cases hs'
      simpa [Operation.event?, hkey] using h
  | resetSites =>
    simp only [Operation.siteAfter, hs] at hs'
    -- a reset of all sites passes by the detached ones
    cases key with
    | numbered id =>
      cases hs'
      exact h.reset
    | detached serial =>
      cases hs'
      exact h
  | _ =>
    simp only [Operation.siteAfter, hs] at hs'
    cases hs'
    exact h

/-- The diary of a site agrees with its counters, from its creation on. -/
theorem Kept.balanced {l : Ledger} (h : Kept g l) (hs : g.sites.get? key = some s) :
    s.Balanced (l.diary key) := by
  induction h generalizing s with
  | fresh => cases hs
  | @perform g l h op ih =>
    have hunused := h.reachable.unused
    -- the diary of a site that was there goes on, the diary of a new one starts empty
    cases hbefore : g.sites.get? key with
    | some s₀ =>
      simp only [Ledger.note, hbefore]
      exact balanced_perform hunused (ih hbefore) hbefore hs
    | none =>
      simp only [Ledger.note, hbefore]
      rcases sites_perform hunused hs with ⟨s₀, hs₀, -⟩ | ⟨-, ⟨id, access, name, room, rfl⟩, -⟩
      · rw [hbefore] at hs₀
        cases hs₀
      · exact Site.balanced_create id access name room

/-! ## The resolver -/

theorem resolver_dispatch {receiver : Value} {args : List Value} (hs : g.sites.get? key = some s) :
    (g.perform (.dispatch key receiver args)).resolver =
      if s.serves g.registry (.ofCall g.registry receiver args) then g.resolver
      else (g.resolver.resolve s.access (.ofValue g.registry receiver) s.name (.ofArgs args)).2 :=
  (resolver_perform_dispatch hs).trans (Site.counted_dispatchShape ..).resolver

/-- An operation that enters the resolver does so once. -/
theorem answered_perform (hg : g.registry.Housed) {c : ClassRef} (hasks : op.asks? g = some c) :
    g.resolver.Answered c (g.perform op).resolver := by
  cases op with
  | resolve access receiver name args =>
    cases hasks
    rw [← cls_ofValue g.registry receiver]
    exact Resolver.answered_resolve hg _ _ _ _
  | dispatch key receiver args =>
    cases hs : g.sites.get? key with
    | none => simp [Operation.asks?, hs] at hasks
    | some s =>
      simp only [Operation.asks?, hs] at hasks
      -- a call that its site serves asks nothing
      split at hasks
      · cases hasks
      · next hserves =>
        cases hasks
        rw [resolver_dispatch hs, if_neg hserves, ← cls_ofValue g.registry receiver]
        exact Resolver.answered_resolve hg _ _ _ _
  | _ => cases hasks

/-- An operation that does not enter the resolver leaves its counters alone, and the memo too, or
clears it. -/
theorem resolver_of_not_asks (hasks : op.asks? g = none) :
    ∃ r memo, (g.perform op).resolver = { g.resolver with registry := r, memo } ∧
      (memo = g.resolver.memo ∨ memo = .empty) := by
  -- what is left of the resolver, by the kinds of operations that can reach it
  rcases resolver_perform g op with ⟨r, hr⟩ | rfl | ⟨_, _, _, _, rfl⟩ | ⟨key, receiver, args, rfl⟩
  · exact ⟨r, _, hr, .inl rfl⟩
  · exact ⟨_, _, rfl, .inr rfl⟩
  · cases hasks
  · refine ⟨g.registry, g.resolver.memo, ?_, .inl rfl⟩
    cases hs : g.sites.get? key with
    | none => simp [perform, dispatch, hs, registry]
    | some s =>
      -- a call that asks nothing is one that its site serves
      have hserves : s.serves g.registry (.ofCall g.registry receiver args) := by
        simpa [Operation.asks?, hs] using hasks
      rw [resolver_dispatch hs, if_pos hserves]
      rfl

theorem invocations_perform (hg : g.registry.Housed) (op : Operation β) :
    (g.perform op).resolver.invocations =
      g.resolver.invocations + if (op.asks? g).isSome then 1 else 0 := by
  cases hasks : op.asks? g with
  | some c => exact (answered_perform hg hasks).invocations
  | none =>
    obtain ⟨r, memo, heq, -⟩ := resolver_of_not_asks hasks
    rw [heq]
    rfl

/-- What the resolver counts and how much it remembers agrees with the ledger and the settings. -/
structure ResolverKept (g : Engine β) (l : Ledger) : Prop where
  invocations : g.resolver.invocations =
    g.resolver.fullResolutions + g.resolver.memoHits + l.strangers
  memoize : g.resolver.memoize = g.settings.memoizeResolutions
  memoCapacity : g.resolver.memoCapacity = max g.settings.memoCapacity 1
  roomy : g.resolver.Roomy

theorem settings_perform (g : Engine β) (op : Operation β) :
    (g.perform op).settings = g.settings := by
  cases op with
  | define | changeClass | changeObject | applyCategory | applyTrait | invalidate | membersOf
    | versionOf =>
    rw [perform_of_change rfl]
    split <;> rfl
  | openSite =>
    simp only [perform, openSite]
    split
    · split <;> rfl
    · rfl
  | dispatch =>
    simp only [perform, dispatch]
    split <;> rfl
  | _ => rfl

theorem Kept.resolver {l : Ledger} (h : Kept g l) : g.ResolverKept l := by
  induction h with
  | fresh settings =>
    exact ⟨rfl, rfl, rfl, ⟨Nat.le_max_right _ _, Nat.zero_le _, fun _ => rfl⟩⟩
  | @perform g l h op ih =>
    obtain ⟨hinvocations, hmemoize, hcapacity, hroomy⟩ := ih
    cases hasks : op.asks? g with
    | some c =>
      have ha := answered_perform h.reachable.housed hasks
      refine ⟨?_, ?_, ?_, ha.roomy hroomy⟩
      -- a declared class is looked up or remembered, and a stranger is noted in the ledger
      · have hfound : _ = _ + if g.registry.hierarchy.Declares c then 1 else 0 := ha.found
        rw [ha.invocations]
        show _ = _ + (l.strangers + if (op.asks? g).any _ then 1 else 0)
        rw [hasks]
        by_cases hc : g.registry.hierarchy.Declares c
        · simp only [if_pos hc] at hfound
          simp [hc]
          omega
        · simp only [if_neg hc] at hfound
          simp [hc]
          omega
      · rw [ha.memoize, settings_perform, hmemoize]
      · rw [ha.memoCapacity, settings_perform, hcapacity]
    | none =>
      obtain ⟨r, memo, heq, hmemo⟩ := resolver_of_not_asks hasks
      -- nothing was asked, so the most that happened is that the memo was cleared
      refine ⟨?_, ?_, ?_, ?_⟩
      · rw [heq]
        simpa [Ledger.note, hasks] using hinvocations
      · rw [heq, settings_perform, hmemoize]
      · rw [heq, settings_perform, hcapacity]
      · rw [heq]
        rcases hmemo with rfl | rfl
        · exact ⟨hroomy.room, hroomy.size_le, hroomy.off⟩
        · exact ⟨hroomy.room, Nat.zero_le _, fun _ => rfl⟩

/-! ## The numbered sites -/

/-- The resolutions that a site counts for the metrics: those of a numbered one. -/
def weight : SiteKey → Site β → Nat
  | .numbered _, s => s.resolutions
  | .detached _, _ => 0

theorem total_perm (count : Site β → Nat) {sites sites' : List (Site β)}
    (h : sites.Perm sites') : Metrics.total count sites = Metrics.total count sites' := by
  have hcomm : LeftCommutative fun (s : Site β) n => count s + n :=
    ⟨fun s s' n => Nat.add_left_comm (count s) (count s') n⟩
  exact h.foldr_eq 0

/-- The order of a report does not change its sums. -/
theorem siteResolutions_metrics : g.metrics.siteResolutions = g.sites.sum weight := by
  show Metrics.total (·.resolutions) g.numberedSites = _
  rw [numberedSites, total_perm _ ((List.mergeSort_perm _ _).map _), Table.sum]
  induction g.sites.entries with
  | nil => rfl
  | cons p rest ih =>
    obtain ⟨key, s⟩ := p
    rw [List.foldr_cons, ← ih]
    cases key with
    | numbered id => rfl
    | detached serial => exact (Nat.zero_add _).symm

theorem nodup_keys_perform (hg : g.sites.keys.Nodup) (op : Operation β) :
    (g.perform op).sites.keys.Nodup := by
  cases op with
  | define | changeClass | changeObject | applyCategory | applyTrait | invalidate | membersOf
    | versionOf =>
    rw [perform_of_change rfl]
    split <;> exact hg
  | openSite =>
    simp only [perform, openSite]
    split
    · split <;> exact hg
    · exact Table.nodup_keys_insert hg
  | attach => exact Table.nodup_keys_insert hg
  | drop => exact Table.nodup_keys_erase hg
  | dispatch =>
    simp only [perform, dispatch]
    split
    · exact hg
    · exact Table.nodup_keys_insert hg
  | resetSite =>
    simp only [perform, resetSite, Table.modify]
    split
    · exact Table.nodup_keys_insert hg
    · exact hg
  | resetSites =>
    -- a reset changes sites and no keys
    have hkeys : g.resetSites.sites.keys = g.sites.keys := by
      simp only [resetSites, Table.keys, List.map_map]
      apply List.map_congr_left
      rintro ⟨key, s⟩ -
      cases key <;> rfl
    exact hkeys ▸ hg
  | _ => exact hg

theorem weight_dispatch {receiver : Value} {args : List Value} :
    (g.perform (.dispatch key receiver args)).sites.sum weight = g.sites.sum weight +
      if ((Operation.dispatch key receiver args).asks? g).isSome ∧
        (Operation.dispatch key receiver args : Operation β).isNumbered then 1 else 0 := by
  cases hs : g.sites.get? key with
  | none => simp [perform, dispatch, hs, Operation.asks?]
  | some s =>
    have hcounted := Site.counted_dispatchShape s g.policy g.resolver
      (.ofCall g.registry receiver args)
    -- of all sites the call changes only this one, so the sum grows by what it counts more
    have h := Table.sum_insert_of_some (f := weight) (v := (s.dispatch g.policy g.resolver receiver
      args).2.1) hs
    have hresolutions : (s.dispatch g.policy g.resolver receiver args).2.1.resolutions =
        s.resolutions + if s.serves g.registry (.ofCall g.registry receiver args) then 0 else 1 :=
      hcounted.resolutions
    simp only [perform, dispatch_of_site hs, Operation.asks?, hs]
    cases key with
    | numbered id =>
      simp only [weight] at h
      rw [hresolutions] at h
      by_cases hserves : s.serves g.registry (.ofCall g.registry receiver args)
      · simp [hserves] at h ⊢
        omega
      · simp [hserves, Operation.isNumbered] at h ⊢
        omega
    -- detached sites weigh nothing
    | detached serial =>
      simp only [weight] at h
      simpa [Operation.isNumbered] using h

/-- The resolutions that the numbered sites count grow with each call through one of them that it
does not serve, and only a site that is dropped takes its own away. -/
theorem weight_perform (hunused : g.Unused) (hg : g.sites.keys.Nodup) (op : Operation β) :
    (g.perform op).sites.sum weight + op.dropped g =
      g.sites.sum weight + if (op.asks? g).isSome ∧ op.isNumbered then 1 else 0 := by
  cases op with
  | define | changeClass | changeObject | applyCategory | applyTrait | invalidate | membersOf
    | versionOf =>
    rw [perform_of_change rfl]
    split <;> rfl
  | openSite id access name =>
    simp only [perform, openSite]
    split
    · split <;> rfl
    · next hnone => exact Table.sum_insert_of_none hnone
  | attach id access name room => exact Table.sum_insert_of_none (hunused _ (Nat.le_refl _))
  | drop key =>
    have h := Table.sum_erase (f := weight) (k := key) hg
    cases key with
    | numbered id => exact h
    | detached serial =>
      -- nor is anything lost with a detached site
      have hnothing : ((g.sites.get? (.detached serial)).map (weight (.detached serial))).getD 0 =
          0 := by
        cases g.sites.get? (.detached serial) <;> rfl
      rw [hnothing] at h
      exact h
  | dispatch key receiver args => exact weight_dispatch
  | resetSite key =>
    simp only [perform, resetSite, Table.modify]
    split
    · next s hs =>
      have h := Table.sum_insert_of_some (f := weight) (v := s.reset) hs
      -- a reset keeps what the site asked for so far
      have hsame : weight key s.reset = weight key s := by cases key <;> rfl
      rw [hsame] at h
      exact Nat.add_right_cancel h
    · rfl
  | resetSites =>
    have hsame : g.resetSites.sites.sum weight = g.sites.sum weight := by
      simp only [resetSites, Table.sum, List.foldr_map]
      congr 1
      funext p n
      obtain ⟨key, s⟩ := p
      cases key <;> rfl
    exact hsame
  | _ => rfl

/-- The numbered sites account for all resolutions that were not asked for elsewhere, but for what
dropped ones had counted. -/
theorem Kept.weight {l : Ledger} (h : Kept g l) : g.sites.keys.Nodup ∧
    g.resolver.invocations = g.sites.sum weight + l.elsewhere + l.dropped := by
  induction h with
  | fresh settings => exact ⟨List.nodup_nil, rfl⟩
  | @perform g l h op ih =>
    obtain ⟨hnodup, hinvocations⟩ := ih
    refine ⟨nodup_keys_perform hnodup op, ?_⟩
    have hweight := weight_perform h.reachable.unused hnodup op
    have hasked := invocations_perform h.reachable.housed op
    -- what is asked is asked by a numbered site or elsewhere
    have hsplit : (if (op.asks? g).isSome then 1 else 0) =
        (if (op.asks? g).isSome ∧ op.isNumbered then 1 else 0) +
          if (op.asks? g).isSome ∧ ¬ op.isNumbered then 1 else 0 := by
      by_cases hnumbered : op.isNumbered <;> simp [hnumbered]
    show _ = _ + (l.elsewhere + _) + (l.dropped + _)
    omega

/-! ## The balance -/

/-- The counts of a run agree with its ledger, whichever way the run took. Each site has made the
calls of its diary, and since its last reset each was a hit or a miss; every miss asked for a
resolution; and it froze as often as it thawed or was reset while frozen, once more if it is frozen.
The resolver looks up or remembers what it is asked for, except for strangers, and remembers no more
than there is room for. What is asked for is either counted by the numbered sites or noted as asked
elsewhere: where nothing was, the metrics report as many resolutions by sites as resolver
invocations. Programs drop no numbered site. -/
theorem Reachable.accounts (hg : g.Reachable) : (∃ l, Kept g l) ∧ ∀ l, Kept g l →
    (∀ key s, g.sites.get? key = some s → s.Balanced (l.diary key)) ∧
    g.resolver.invocations =
      g.resolver.fullResolutions + g.resolver.memoHits + l.strangers ∧
    g.resolver.memo.size ≤ max 1 g.settings.memoCapacity ∧
    (g.settings.memoizeResolutions = false → g.resolver.memo.size = 0) ∧
    g.metrics.resolverInvocations =
      g.metrics.siteResolutions + l.elsewhere + l.dropped := by
  refine ⟨hg.kept, fun l h => ?_⟩
  obtain ⟨hinvocations, hmemoize, hcapacity, hroomy⟩ := h.resolver
  refine ⟨fun key s hs => h.balanced hs, hinvocations, ?_, ?_, ?_⟩
  · rw [Nat.max_comm, ← hcapacity]
    exact hroomy.size_le
  · rw [← hmemoize]
    exact hroomy.off
  · rw [siteResolutions_metrics]
    exact h.weight.2

/-- The site of `sampleCall` was reset and called again. -/
def sampleReset : Engine Unit :=
  (sampleCall.perform (.resetSite (.numbered 0))).perform
    (.dispatch (.numbered 0) sampleReceiver [sampleArgument])

theorem accounts_sampleReset : sampleReset.Reachable ∧ ∃ l s, Kept sampleReset l ∧
    sampleReset.sites.get? (.numbered 0) = some s ∧ s.Balanced (l.diary (.numbered 0)) ∧
    l.diary (.numbered 0) = [.call false, .reset 1 false, .call false] ∧ s.misses = 1 ∧
    sampleReset.metrics.siteResolutions = 2 ∧ sampleReset.metrics.resolverInvocations = 2 := by
  have hreach : sampleReset.Reachable := (reachable_sampleCall.perform trivial).perform trivial
  obtain ⟨l, hl, hdiary, helsewhere, hdropped⟩ : ∃ l, Kept sampleReset l ∧
      l.diary (.numbered 0) = [.call false, .reset 1 false, .call false] ∧
      l.elsewhere = 0 ∧ l.dropped = 0 := by
    refine ⟨_, .perform (.perform (.perform (.perform (.perform (.perform (.perform
      (.fresh .default) _) _) _) _) _) _) _, ?_, ?_, ?_⟩ <;> rfl
  obtain ⟨s, hs, hmisses⟩ : ∃ s, sampleReset.sites.get? (.numbered 0) = some s ∧ s.misses = 1 :=
    ⟨_, rfl, rfl⟩
  obtain ⟨hsites, -, -, -, hmetrics⟩ := (Reachable.accounts hreach).2 l hl
  refine ⟨hreach, l, s, hl, hs, hsites _ s hs, hdiary, hmisses, ?_, rfl⟩
  rw [helsewhere, hdropped] at hmetrics
  exact hmetrics.symm

end Engine

end LateBinding
