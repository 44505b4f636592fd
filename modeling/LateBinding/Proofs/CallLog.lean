import LateBinding.Proofs.Recency

/-!
# Logs of calls

What a call site does depends on the calls it gets and on what happens to the classes of its entries
in between. `Engine.Logged` notes the calls of one site, each with what came of it, in a run in
which anything else happens that spares the site and leaves its entries valid; `Logged.carry` is
the induction on such runs.

With it, the slots of a site are seen to be a least recently used cache, whether or not the site
freezes and thaws meanwhile (`Logged.least_recently_used`).
-/

namespace LateBinding

/-- A call of a site, and what came of it. -/
structure Call (β : Type) where
  shape : Shape
  /-- The site counted a hit. -/
  hit : Bool
  /-- How many resolutions the call asked for. -/
  asked : Nat
  /-- What a resolution would have come to at that moment. -/
  resolved : Except DispatchError (Target β)
  answer : Except DispatchError (Target β)

namespace Call

variable {β : Type}

/-- The shapes of the calls that were answered. The latest call stands first. -/
def heard (calls : List (Call β)) : List Shape :=
  (calls.filter (·.answer.isOk)).map (·.shape)

/-- The calls that were answered without a hit. -/
def learned (calls : List (Call β)) : Nat := calls.countP fun c => c.answer.isOk && !c.hit

end Call

namespace Engine

variable {β : Type} {g g₀ g' : Engine β} {key : SiteKey} {s s₀ : Site β} {op : Operation β}
variable {allowed : Engine β → Operation β → Prop} {calls : List (Call β)} {receiver : Value}
variable {args : List Value}

/-- A call of a site as it is noted. -/
def noted (g : Engine β) (s : Site β) (receiver : Value) (args : List Value) : Call β where
  shape := .ofCall g.registry receiver args
  hit := s.hits < (s.dispatch g.policy g.resolver receiver args).2.1.hits
  asked := (s.dispatch g.policy g.resolver receiver args).2.2.invocations - g.resolver.invocations
  resolved := (g.resolver.resolve s.access (.ofValue g.registry receiver) s.name
    (.ofArgs args)).1.map (·.target)
  answer := (s.dispatch g.policy g.resolver receiver args).1

/-- The operation changes no version that an entry of the site relies on. -/
def Operation.LeavesValid (key : SiteKey) (g : Engine β) (op : Operation β) : Prop :=
  ∀ s, g.sites.get? key = some s → ∀ x ∈ s.shapes, ∀ o ∈ x.receiver.owners,
    (g.perform op).registry.version? o = g.registry.version? o

/-- From `g` to another engine, the site of a key got some calls, the latest standing first. In
between there were allowed operations that spared the site and the versions of its entries. -/
inductive Logged (allowed : Engine β → Operation β → Prop) (key : SiteKey) (g : Engine β) :
    Engine β → List (Call β) → Prop
  | start : Logged allowed key g g []
  | other {g' : Engine β} {calls : List (Call β)} {op : Operation β}
    (h : Logged allowed key g g' calls) (hallowed : allowed g' op) (hop : op.Spares key)
    (hvalid : op.LeavesValid key g') : Logged allowed key g (g'.perform op) calls
  | call {g' : Engine β} {calls : List (Call β)} {s : Site β} {receiver : Value}
    {args : List Value} (h : Logged allowed key g g' calls) (hs : g'.sites.get? key = some s) :
    Logged allowed key g (g'.perform (.dispatch key receiver args))
      (g'.noted s receiver args :: calls)

theorem Logged.trans {later : List (Call β)} (h' : Logged allowed key g g' later)
    (h : Logged allowed key g₀ g calls) : Logged allowed key g₀ g' (later ++ calls) := by
  induction h' with
  | start => exact h
  | other _ hallowed hop hvalid ih => exact .other ih hallowed hop hvalid
  | call _ hs ih => exact .call ih hs

theorem Logged.reachable (h : Logged allowed key g₀ g calls) (hg : g₀.Reachable) :
    g.Reachable := by
  induction h with
  | start => exact hg
  | other _ _ _ _ ih | call _ _ ih => exact ih.perform trivial

/-- Entries whose versions were left alone are still valid. -/
theorem current_of_leavesValid (hg : g.Reachable) (hs : g.sites.get? key = some s)
    (hvalid : op.LeavesValid key g) (hcurrent : s.Current g.registry) :
    s.Current (g.perform op).registry := by
  intro e he
  -- the entry counts as a finding, so its guard is one for its own receiver
  have hrecalls : s.Recalls e.shape ⟨e.target, e.guard⟩ :=
    ⟨e, .inl (Site.mem_entries.mp he), rfl, rfl, rfl⟩
  have hfor : e.guard.IsFor e.shape.receiver := (hg.founded (.site hs hrecalls)).isFor
  have hsame := hvalid s hs e.shape (List.mem_map_of_mem he)
  have hcur : e.guard.isCurrent g.registry := hcurrent e he
  rw [Guard.isCurrent_iff] at hcur
  refine Guard.isCurrent_iff.mpr ⟨?_, fun obj v hown => ?_⟩
  · rw [hfor.1, hsame _ List.mem_cons_self, ← hfor.1]
    exact hcur.1
  -- an instance is guarded only if it is the receiver, whose version was left alone too
  · have hobj : e.shape.receiver.object? = some obj := by
      rw [← hfor.2, hown]
      rfl
    rw [hsame (.ofObject obj) (by simp [Receiver.owners, hobj])]
    exact hcur.2 obj v hown

theorem get?_perform_dispatch (hs : g.sites.get? key = some s) :
    (g.perform (.dispatch key receiver args)).sites.get? key =
      some (s.dispatch g.policy g.resolver receiver args).2.1 := by
  rw [get?_perform, Operation.siteAfter, if_pos rfl, hs, Option.map_some]

/-- What holds of a site whose entries are valid and is preserved by its calls, holds after all
that is logged; and the entries are still valid. -/
theorem Logged.carry {P : Site β → List (Call β) → Prop}
    (h : Logged allowed key g₀ g calls) (hg : g₀.Reachable) (hs : g₀.sites.get? key = some s₀)
    (hcurrent : s₀.Current g₀.registry) (hstart : P s₀ [])
    (hcall : ∀ {g calls s receiver args}, Logged allowed key g₀ g calls →
      g.sites.get? key = some s → s.Current g.registry → P s calls →
      P (s.dispatch g.policy g.resolver receiver args).2.1 (g.noted s receiver args :: calls)) :
    ∃ s, g.sites.get? key = some s ∧ s.Current g.registry ∧ P s calls := by
  -- the site may have been replaced at every call, so it is found again in each case
  induction h with
  | start => exact ⟨s₀, hs, hcurrent, hstart⟩
  | other h hallowed hop hvalid ih =>
    obtain ⟨s, hs, hcurrent, hP⟩ := ih
    have hg := h.reachable hg
    exact ⟨s, site_of_spares hg hs hop, current_of_leavesValid hg hs hvalid hcurrent, hP⟩
  | @call g calls s receiver args h hs' ih =>
    obtain ⟨s₁, hs, hcurrent, hP⟩ := ih
    -- `hs'` and the hypothesis of the induction speak of the same site
    rw [hs'] at hs
    cases hs
    refine ⟨_, get?_perform_dispatch hs', ?_, hcall h hs' hcurrent hP⟩
    have hregistry : (g.perform (.dispatch key receiver args)).registry =
        (s.dispatch g.policy g.resolver receiver args).2.2.registry :=
      congrArg Resolver.registry (resolver_perform_dispatch hs')
    rw [hregistry]
    exact current_dispatch (h.reachable hg) hs' hcurrent

/-! ## Least recently used -/

theorem entries_of_fresh (hfresh : s.Fresh) : s.entries = [] := by
  cases hfresh <;> exact Site.entries_of_slots (Site.slots_empty _)

theorem ranked_of_fresh (hfresh : s.Fresh) : s.Ranked s.freezes [] where
  order := ⟨[], by rw [entries_of_fresh hfresh], rfl, List.Pairwise.nil,
    fun _ => (entries_of_fresh hfresh).symm⟩
  used := by simp [entries_of_fresh hfresh]
  freezes := Nat.le_refl _
  frozen hphase := by cases hfresh <;> cases hphase

/-- The site caches what was answered last, and has paid for all else that it learned. -/
structure Caches (s : Site β) (room first : Nat) (calls : List (Call β)) : Prop where
  capacity : s.capacity = room
  ranked : s.phase ≠ .megamorphic → s.Ranked first ((Shape.latest (Call.heard calls)).take room)
  missPenalty : s.phase ≠ .megamorphic →
    s.missPenalty + s.entries.length = Call.learned calls

theorem caches_of_fresh (hfresh : s.Fresh) : Caches s s.capacity s.freezes [] where
  capacity := rfl
  ranked _ := by
    rw [show Shape.latest (Call.heard ([] : List (Call β))) = [] from rfl, List.take_nil]
    exact ranked_of_fresh hfresh
  missPenalty _ := by
    rw [entries_of_fresh hfresh]
    cases hfresh <;> rfl

theorem heard_noted : Call.heard (g.noted s receiver args :: calls) =
    if (s.dispatch g.policy g.resolver receiver args).1.isOk then
      .ofCall g.registry receiver args :: Call.heard calls else Call.heard calls := by
  unfold Call.heard
  rw [List.filter_cons, apply_ite (List.map _)]
  rfl

/-- A call is noted as a hit exactly if the site has an entry for its shape. -/
theorem hit_noted (receiver : Value) (args : List Value) (hg : g.Reachable)
    (hs : g.sites.get? key = some s) (hcurrent : s.Current g.registry)
    (hphase : s.phase ≠ .megamorphic) :
    (g.noted s receiver args).hit ↔ .ofCall g.registry receiver args ∈ s.shapes := by
  have hhits := (turn_dispatch receiver args hg hs hcurrent hphase).hits (hg.valid hs)
  simp only [noted, decide_eq_true_eq]
  rw [hhits]
  split <;> simp_all

/-- Calls of a site whose entries are valid keep it caching what was answered last. -/
theorem Caches.call (hg : g.Reachable) (hs : g.sites.get? key = some s)
    (hcurrent : s.Current g.registry) {room first : Nat} (h : Caches s room first calls) :
    Caches (s.dispatch g.policy g.resolver receiver args).2.1 room first
      (g.noted s receiver args :: calls) := by
  have hvalid := hg.valid hs
  by_cases hphase : s.phase = .megamorphic
  -- a site that gave up has done so for good, and is not spoken of any more
  · have hafter : (s.dispatch g.policy g.resolver receiver args).2.1 = s.count.ask :=
      Site.dispatchShape_of_megamorphic hphase
    rw [hafter]
    exact ⟨h.capacity, absurd hphase, absurd hphase⟩
  -- otherwise the call is one turn of the ranking, and the ranking is known to survive turns
  · have hturn := turn_dispatch receiver args hg hs hcurrent hphase
    refine ⟨(hturn.capacity hvalid).trans h.capacity, fun hafter => ?_, fun hafter => ?_⟩
    · have hranked := (h.ranked hphase).turn hvalid hturn hafter
      have hroom : 1 ≤ room := h.capacity ▸ hvalid.room
      rw [h.capacity] at hranked
      -- an answer makes its shape the latest, an error leaves the order as it was
      rw [heard_noted]
      split
      · next hok => rwa [if_pos hok, ← Shape.take_latest_cons hroom] at hranked
      · next herror => rwa [if_neg herror] at hranked
    · rw [hturn.missPenalty hvalid hafter, h.missPenalty hphase, Call.learned, Call.learned,
        List.countP_cons]
      have hhit := hit_noted receiver args hg hs hcurrent hphase
      -- the counters agree on whether this call was learned: no hit, and answered
      refine congrArg (_ + ·) (if_congr ?_ rfl rfl)
      rw [Bool.and_eq_true, Bool.not_eq_true', ← Bool.not_eq_true, hhit]
      rfl

/-- A site is a least recently used cache. While no version changes under its entries, since the
site was created or reset, and until it gives up: it has entries for the shapes that were answered
last, as many as fit, calls served while it was frozen included; the calls that hit are those of
these shapes; each answer that was no hit has an entry or made another go; and until the site first
freezes, the entries are in the order of the last calls. -/
theorem Logged.least_recently_used (h : Logged Anything key g₀ g calls) (hg : g₀.Reachable)
    (hs₀ : g₀.sites.get? key = some s₀) (hfresh : s₀.Fresh) :
    ∃ s, g.sites.get? key = some s ∧ (s.phase ≠ .megamorphic →
      s.shapes.Perm ((Shape.latest (Call.heard calls)).take s₀.capacity) ∧
      (∀ receiver args, (g.noted s receiver args).hit ↔
        .ofCall g.registry receiver args ∈
          (Shape.latest (Call.heard calls)).take s₀.capacity) ∧
      s.missPenalty + s.entries.length = Call.learned calls ∧
      (s.freezes = s₀.freezes →
        s.shapes = (Shape.latest (Call.heard calls)).take s₀.capacity)) := by
  obtain ⟨s, hs, hcurrent, hcaches⟩ := h.carry
    (P := fun s calls => Caches s s₀.capacity s₀.freezes calls) hg hs₀
    (Site.current_of_empty (entries_of_fresh hfresh)) (caches_of_fresh hfresh)
    (fun h hs hcurrent hcaches => hcaches.call (h.reachable hg) hs hcurrent)
  refine ⟨s, hs, fun hphase => ?_⟩
  have hranked := hcaches.ranked hphase
  refine ⟨hranked.perm, fun receiver args => ?_, hcaches.missPenalty hphase,
    hranked.eq_of_freezes⟩
  rw [hit_noted _ _ (h.reachable hg) hs hcurrent hphase]
  exact hranked.perm.mem_iff

theorem reachable_sampleRing : sampleRing.Reachable :=
  ⟨_, .tail (.tail (.tail .refl ⟨_, trivial, rfl⟩) ⟨_, trivial, rfl⟩) ⟨_, trivial, rfl⟩⟩

theorem site_sampleRing :
    sampleRing.sites.get? (.numbered 0) = some (.create 0 .method "m" 2) := rfl

/-- The calls for both classes, through a site that froze after each. -/
theorem logged_sampleRound : ∃ calls, Logged Anything (.numbered 0) sampleRing sampleRound calls ∧
    Call.heard calls = [ringShape ⟨9⟩, ringShape ⟨8⟩] ∧ Call.learned calls = 2 := by
  have hfirst : Logged Anything (.numbered 0) sampleRing (sampleRing.perform (ringCall ⟨8⟩)) _ :=
    .call .start rfl
  have hsecond : Logged Anything (.numbered 0) sampleRing sampleRound _ := .call hfirst rfl
  exact ⟨_, hsecond, by decide, by decide⟩

/-- Both shapes fit, so a call of either hits, and nothing was evicted. -/
theorem least_recently_used_sampleRound : ∃ s, sampleRound.sites.get? (.numbered 0) = some s ∧
    s.phase = .frozen ∧ s.shapes.Perm [ringShape ⟨9⟩, ringShape ⟨8⟩] ∧ s.missPenalty = 0 := by
  obtain ⟨calls, hcalls, hheard, hlearned⟩ := logged_sampleRound
  obtain ⟨s, hs, hcached⟩ := hcalls.least_recently_used reachable_sampleRing site_sampleRing
    (.created 0 .method "m" 2)
  obtain ⟨s', hs', hfrozen⟩ : ∃ s', sampleRound.sites.get? (.numbered 0) = some s' ∧
      s'.phase = .frozen := ⟨_, rfl, by decide⟩
  rw [hs] at hs'
  cases hs'
  -- a frozen site has not given up, so all four parts hold
  obtain ⟨hshapes, -, hpenalty, -⟩ := hcached (by rw [hfrozen]; nofun)
  have hlatest : (Shape.latest (Call.heard calls)).take 2 = [ringShape ⟨9⟩, ringShape ⟨8⟩] := by
    rw [hheard]
    decide
  have hroom : (Site.create 0 .method "m" 2 : Site Unit).capacity = 2 := rfl
  rw [hroom, hlatest] at hshapes
  have hlength := hshapes.length_eq
  rw [Site.length_shapes] at hlength
  rw [hlearned] at hpenalty
  have htwo : s.entries.length = 2 := hlength
  exact ⟨s, hs, hfrozen, hshapes, by omega⟩

end Engine

end LateBinding
