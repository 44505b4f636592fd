import LateBinding.Proofs.Coherence
import LateBinding.Proofs.TwinRegistries

/-!
# Engines that cannot be told apart

Two engines are twins if they have the same classes with the same members and sites for the same
members under the same keys. They may differ in everything that is there for speed or for
monitoring: the settings and the policy, what the sites and the resolver remember, which cells
have come into being, stamps and counts.

As long as no trait is applied, twins answer alike and the same operation makes twins of them
(`Engine.Twins.perform`), and tuning one of them leaves them twins (`Engine.Twins.tune`). That calls
are answered alike rests on coherence: each of the two answers what looking up yields.
-/

namespace LateBinding

/-! ## Sites and their members -/

/-- A call does not change what a site is for. -/
theorem Site.member_dispatch {β : Type} {s : Site β} {p : Policy} {q : Resolver β} {v : Value}
    {args : List Value} : (s.dispatch p q v args).2.1.access = s.access ∧
      (s.dispatch p q v args).2.1.name = s.name := by
  have hserved : s.Served q (.ofCall q.registry v args) (s.dispatch p q v args) :=
    Site.served_dispatch
  generalize s.dispatch p q v args = out at hserved
  cases hserved with
  | hit _ _ hs' => exact ⟨hs'.access, hs'.name⟩
  | asked hs' => exact ⟨hs'.access, hs'.name⟩

namespace Engine

variable {β : Type} {g g' : Engine β} {op : Operation β} {key : SiteKey} {s : Site β}
variable {receiver : Value} {args : List Value} {access : Access} {name : String} {c : ClassRef}

/-- The member that the site of a key is for, if there is a site. -/
def member? (g : Engine β) (key : SiteKey) : Option (Access × String) :=
  (g.sites.get? key).map fun s => (s.access, s.name)

/-- What an operation makes of the sites, by their members: it opens, attaches or drops one, and
all others do nothing. -/
def Operation.membersAfter (op : Operation β) (serial : Nat)
    (members : SiteKey → Option (Access × String)) (key : SiteKey) : Option (Access × String) :=
  match op with
  | .openSite id access name =>
    if .numbered id = key then some ((members key).getD (access, name)) else members key
  | .attach _ access name _ => if .detached serial = key then some (access, name) else members key
  | .drop key' => if key' = key then none else members key
  | _ => members key

theorem member?_perform (g : Engine β) (op : Operation β) (key : SiteKey) :
    (g.perform op).member? key = op.membersAfter g.nextSerial g.member? key := by
  rw [member?, get?_perform]
  cases op with
  -- site by site, what is asked for changes only where one is made, replaced or dropped
  | openSite =>
    simp only [Operation.siteAfter, Operation.membersAfter]
    split
    · rw [member?]
      cases g.sites.get? key <;> rfl
    · rfl
  | attach | drop =>
    simp only [Operation.siteAfter, Operation.membersAfter]
    split <;> rfl
  | dispatch =>
    simp only [Operation.siteAfter, Operation.membersAfter]
    split
    · rw [Option.map_map, member?]
      cases g.sites.get? key with
      | none => rfl
      -- a call may replace what a site remembers, but not what it is for
      | some s => exact congrArg some (Prod.ext Site.member_dispatch.1 Site.member_dispatch.2)
    · rfl
  | resetSite =>
    simp only [Operation.siteAfter, Operation.membersAfter]
    split
    · rw [Option.map_map]
      rfl
    · rfl
  | resetSites =>
    rw [Operation.siteAfter, Option.map_map]
    cases key <;> rfl
  | _ => rfl

/-! ## Twin engines -/

/-- The engines have the same classes, members and sites, and got them without traits. -/
structure Twins (g' g : Engine β) : Prop where
  orderly' : ReachableBy Orderly g'
  orderly : ReachableBy Orderly g
  registry : g'.registry.Twins g.registry
  members : ∀ key, g'.member? key = g.member? key
  nextSerial : g'.nextSerial = g.nextSerial

namespace Twins

theorem known (h : g'.Twins g) {v : Value} (hv : g.Known v) : g'.Known v := by
  intro o ho
  rw [h.registry.hierarchy]
  exact hv o ho

theorem grounded (h : g'.Twins g) (hop : op.Grounded g) : op.Grounded g' := by
  cases op with
  | resolve | dispatch => exact fun v hv => h.known (hop v hv)
  | _ => trivial

/-- An operation on the classes or members of both succeeds in both or fails alike. -/
theorem change (h : g'.Twins g) (htrait : ∀ c iface, op ≠ .applyTrait c iface)
    {f : Registry β → Except DispatchError (Registry β)} (hf : op.change? = some f) :
    Registry.TwinResults (f g'.registry) (f g.registry) := by
  have hr' := h.orderly'.reachable.housed
  have hr := h.orderly.reachable.housed
  cases op with
  | define =>
    cases hf
    exact (h.registry.define hr' hr h.orderly'.reachable.sound h.orderly.reachable.sound _ _).1
  | changeClass => cases hf; exact h.registry.changeClass hr' hr
  | changeObject => cases hf; exact h.registry.changeObject _
  | applyCategory => cases hf; exact h.registry.applyCategory hr' hr _
  | applyTrait c iface => exact absurd rfl (htrait c iface)
  | invalidate => cases hf; exact h.registry.invalidate
  | membersOf | versionOf => cases hf; exact h.registry.materialize hr' hr
  | _ => cases hf

end Twins

/-- An operation on other things leaves the registry a twin of itself. -/
theorem twins_registry_perform (hop : op.change? = none) :
    (g.perform op).registry.Twins g.registry := by
  rcases registry_perform g op with ⟨f, hf, -⟩ | ⟨cs, hcs⟩
  · rw [hop] at hf
    cases hf
  · rw [hcs]
    exact Registry.twins_materializeAll cs

/-- The same operation makes twins of twins. -/
theorem Twins.perform (h : g'.Twins g) (hop : Orderly g op) :
    (g'.perform op).Twins (g.perform op) where
  orderly' := h.orderly'.perform ⟨h.grounded hop.1, hop.2⟩
  orderly := h.orderly.perform hop
  registry := by
    cases hchange : op.change? with
    | some f =>
      have hresults := h.change hop.2 hchange
      rw [perform_of_change hchange, perform_of_change hchange]
      -- from here on only the two results matter, and they are twins
      generalize f g'.registry = result', f g.registry = result at hresults
      cases hresults with
      | error => exact h.registry
      | ok hr => exact hr
    | none =>
      -- an operation that changes no class or member at most brings cells into being
      exact (twins_registry_perform hchange).trans
        (h.registry.trans (twins_registry_perform hchange).symm)
  members key := by
    rw [member?_perform, member?_perform, funext h.members, h.nextSerial]
  nextSerial := by rw [(frame_perform g' op).2, (frame_perform g op).2, h.nextSerial]

/-- The operation concerns only how fast calls are answered and what is counted. -/
inductive Operation.Tunes : Operation β → Prop
  | resetSite (key : SiteKey) : Tunes (.resetSite key)
  | resetSites : Tunes .resetSites
  | clearMemo : Tunes .clearMemo
  | setPolicy (changes : List (Policy.Threshold × Nat)) : Tunes (.setPolicy changes)

/-- Tuning one of two twins leaves them twins. -/
theorem Twins.tune (h : g'.Twins g) (hop : op.Tunes) : (g'.perform op).Twins g where
  orderly' := h.orderly'.perform (by cases hop <;> exact ⟨trivial, nofun⟩)
  orderly := h.orderly
  registry := by
    have hchange : op.change? = none := by cases hop <;> rfl
    exact (twins_registry_perform hchange).trans h.registry
  members key := by
    rw [member?_perform, ← h.members key]
    cases hop <;> rfl
  nextSerial := by
    rw [(frame_perform g' op).2, ← h.nextSerial]
    cases hop <;> rfl

/-! ### Answers -/

section

variable (h : g'.Twins g)
include h

/-- Calls through sites decide alike, whatever the sites remember. -/
theorem Twins.dispatch : (g'.dispatch key receiver args).1 = (g.dispatch key receiver args).1 := by
  have hmember := h.members key
  unfold member? at hmember
  -- both engines have the site or neither, and for the same member
  cases hs : g.sites.get? key with
  | none =>
    rw [hs, Option.map_none, Option.map_eq_none_iff] at hmember
    simp only [Engine.dispatch, hs, hmember]
  | some s =>
    rw [hs, Option.map_some] at hmember
    obtain ⟨s', hs', heq⟩ := Option.map_eq_some_iff.mp hmember
    obtain ⟨haccess, hname⟩ := Prod.mk.inj heq
    have hfaithful' := h.orderly'.coherent.faithful h.orderly'.reachable
    have hfaithful := h.orderly.coherent.faithful h.orderly.reachable
    -- both answers are what looking up gives, and looking up sees no difference
    rw [hfaithful'.dispatch key s' receiver args hs', hfaithful.dispatch key s receiver args hs,
      haccess, hname, h.registry.ofValue, h.registry.lookup]

theorem Twins.decideUncached : (g'.decideUncached access receiver name args).1 =
    (g.decideUncached access receiver name args).1 := by
  have hfaithful' := h.orderly'.coherent.faithful h.orderly'.reachable
  have hfaithful := h.orderly.coherent.faithful h.orderly.reachable
  rw [hfaithful'.decideUncached, hfaithful.decideUncached, h.registry.ofValue, h.registry.lookup]

theorem Twins.resolve : (g'.resolve access receiver name args).1.map (·.target) =
    (g.resolve access receiver name args).1.map (·.target) := by
  have hdecide : ∀ g : Engine β, (g.resolve access receiver name args).1.map (·.target) =
      (g.decideUncached access receiver name args).1 := fun _ => decideUncached_fst.symm
  rw [hdecide, hdecide, h.decideUncached]

theorem Twins.resolveClass (args : List ClassRef) :
    (g'.resolveClass c name args).1 = (g.resolveClass c name args).1 := by
  -- the answer is a lookup on one engine, so the two need only agree on that
  have hanswer : ∀ g : Engine β, (g.resolveClass c name args).1 =
      (g.registry.hierarchy.find c).bind fun _ =>
        g.registry.lookup .method (.plain c) name args := by
    intro g
    unfold Engine.resolveClass Resolver.resolveClass
    show _ = (g.resolver.registry.hierarchy.find c).bind _
    dsimp only
    cases g.resolver.registry.hierarchy.find c with
    | error e => rfl
    | ok => exact Registry.lookup_materializeAll _
  rw [hanswer, hanswer, h.registry.hierarchy, h.registry.lookup]

/-- What a change of classes or members answers. -/
theorem Twins.onRegistry' (htrait : ∀ c iface, op ≠ .applyTrait c iface)
    {f : Registry β → Except DispatchError (Registry β)} (hf : op.change? = some f) :
    (g'.onRegistry' f).1 = (g.onRegistry' f).1 := by
  rw [onRegistry'_fst, onRegistry'_fst]
  have hresults := h.change htrait hf
  generalize f g'.registry = result', f g.registry = result at hresults
  cases hresults <;> rfl

theorem Twins.define (header : ClassHeader) (methods : List (MethodDecl β)) :
    (g'.define header methods).1 = (g.define header methods).1 := by
  rw [Engine.define, Engine.define, onRegistry_fst, onRegistry_fst]
  exact (h.registry.define h.orderly'.reachable.housed h.orderly.reachable.housed
    h.orderly'.reachable.sound h.orderly.reachable.sound header methods).2

theorem Twins.membersOf : (g'.membersOf c).1 = (g.membersOf c).1 := by
  rw [Engine.membersOf, Engine.membersOf, onRegistry_fst, onRegistry_fst]
  have hresults : Registry.TwinResults (g'.registry.materialize c) (g.registry.materialize c) :=
    h.registry.materialize h.orderly'.reachable.housed h.orderly.reachable.housed
  generalize g'.registry.materialize c = result', g.registry.materialize c = result at hresults
  cases hresults with
  | error => rfl
  | ok hr => exact congrArg Except.ok (hr.members c)

/-- A number is refused in both for the same other member, or in none. -/
theorem Twins.openSite {id : Nat} : (g'.openSite id access name).1.map (fun _ => ()) =
    (g.openSite id access name).1.map fun _ => () := by
  -- the answer depends on the member under the number and on nothing else of the site
  have hanswer : ∀ g : Engine β, (g.openSite id access name).1.map (fun _ => ()) =
      match g.member? (.numbered id) with
      | some (access', name') =>
        if access' = access ∧ name' = name then .ok ()
        else .error (.siteConflict id (access', name') (access, name))
      | none => .ok () := by
    intro g
    unfold Engine.openSite member?
    cases g.sites.get? (.numbered id) with
    | none => rfl
    | some s =>
      dsimp only [Option.map_some]
      split <;> rfl
  rw [hanswer, hanswer, h.members]

theorem Twins.attach (s' s : Site β) : (g'.attach s').1 = (g.attach s).1 :=
  congrArg SiteKey.detached h.nextSerial

theorem Twins.contains : g'.sites.contains key = g.sites.contains key := by
  have hmember := congrArg Option.isSome (h.members key)
  rwa [member?, member?, Option.isSome_map, Option.isSome_map] at hmember

end

end Engine

end LateBinding
