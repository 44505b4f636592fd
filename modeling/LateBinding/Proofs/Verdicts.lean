import LateBinding.Proofs.FreezingPoint

/-!
# The policy has nothing to add

A call that misses asks the policy for its verdict. A call that is served by an entry does so only
if freezing is possible at all, and never gives up. `Site.obey` is a call after which the policy is
always asked and obeyed. `Site.Restrained` bounds the shapes that a site counts before it gives up;
where it holds, calls are as if the policy was always obeyed (`Site.dispatchShape_eq_obey`), and
asked again after the call, the policy says nothing but `keep`.

As long as the thresholds stay as they are, sites are restrained from when they are created or
reset, whatever else happens (`Engine.Launched.obeys`).
-/

namespace LateBinding

namespace Policy

variable {p : Policy} {e : Evidence}

/-- After a hit, a site gives up only if it is polymorphic and counted too many shapes. -/
theorem verdict_ne_giveUp_of_hit (hhits : 1 ≤ e.hits)
    (hcount : e.distinctShapes ≤ Word.mulSat e.capacity p.megamorphicMultiplier) :
    p.verdict e ≠ .giveUp := by
  intro hgiveUp
  rcases (verdict_eq_giveUp_iff.mp hgiveUp).2 with hfails | hthrashes
  · have hnone := (failsFromStart_iff.mp hfails).2.1
    omega
  · have hmany := (thrashes_iff.mp hthrashes).2
    omega

end Policy

namespace Site

variable {β : Type} {s : Site β} {e : Entry β} {shape : Shape} {t : Target β}
variable {p : Policy} {r : Registry β} {q : Resolver β}
variable {out : Except DispatchError (Target β) × Site β × Resolver β}

/-! ## Calls after which the policy is always asked -/

/-- A miss with all its bookkeeping, but the policy is not asked. -/
def bookMiss (s : Site β) (q : Resolver β) (shape : Shape) :
    Except DispatchError (Target β) × Site β × Resolver β :=
  match s.resolve q shape with
  | (.error e, s, q) => (.error e, s, q)
  | (.ok found, s, q) =>
    (.ok found.target, s.keep q.registry ⟨shape, found.target, found.guard, 0, s.calls⟩, q)

/-- A call with all its bookkeeping, but the policy is not asked. -/
def book (s : Site β) (q : Resolver β) (shape : Shape) :
    Except DispatchError (Target β) × Site β × Resolver β :=
  match s.phase with
  | .cold => s.count.bookMiss q shape
  | .megamorphic => s.count.bypass q shape
  | .frozen =>
    match s.count.frozenFor? q.registry shape with
    | some e => (.ok e.target, s.count.recordHit shape, q)
    | none => (s.count.thaw shape).bookMiss q shape
  | .monomorphic | .polymorphic =>
    match s.count.currentFor? q.registry shape with
    | some e => (.ok e.target, s.count.promote shape, q)
    | none => s.count.bookMiss q shape

/-- Ask the policy after a call that was answered, and do all that it says. -/
def consult (p : Policy) : Except DispatchError (Target β) × Site β × Resolver β →
    Except DispatchError (Target β) × Site β × Resolver β
  | (.error e, s, q) => (.error e, s, q)
  | (.ok t, s, q) => (.ok t, s.follow q.registry (p.verdict s.evidence), q)

/-- A call after which the policy is asked and obeyed, whatever way it was answered. -/
def obey (s : Site β) (p : Policy) (q : Resolver β) (shape : Shape) :
    Except DispatchError (Target β) × Site β × Resolver β :=
  consult p (s.book q shape)

/-! ## Few shapes until a site gives up -/

/-- Unless the site gave up, it counted no more shapes than the policy lets pass, and none while it
is cold. -/
structure Restrained (s : Site β) (p : Policy) : Prop where
  cold : s.phase = .cold → s.distinctShapes = 0
  bound : s.phase ≠ .megamorphic →
    s.distinctShapes ≤ Word.mulSat s.capacity p.megamorphicMultiplier

theorem Restrained.of_eq {s' : Site β} (h : s.Restrained p) (hphase : s'.phase = s.phase)
    (hmet : s'.distinctShapes = s.distinctShapes) (hcapacity : s'.capacity = s.capacity) :
    s'.Restrained p where
  cold := by rw [hphase, hmet]; exact h.cold
  bound := by rw [hphase, hmet, hcapacity]; exact h.bound

theorem restrained_of_fresh (h : s.Fresh) : s.Restrained p where
  cold _ := by cases h <;> rfl
  bound _ := by cases h <;> exact Nat.zero_le _

theorem capacity_learn : (s.learn r e).capacity = s.capacity := by
  rcases learn_eq (s := s) (r := r) (e := e) with heq | heq <;> rw [heq] <;> exact length_fill

theorem capacity_keep (hs : s.Valid) : (s.keep r e).capacity = s.capacity := by
  unfold Site.keep
  split
  · refine Alike.capacity (alike_updateEntry hs (fun x hx => ?_) rfl rfl rfl)
    rfl
  · exact capacity_learn

theorem capacity_thaw : (s.thaw shape).capacity = s.capacity := by
  unfold Site.thaw
  dsimp only [capacity]
  split
  · exact length_fill
  · rfl

/-- A new shape is the first, or makes the site polymorphic. -/
theorem learn_first_or_polymorphic (hcold : s.phase = .cold → s.distinctShapes = 0)
    (hphase : s.phase = .cold ∨ s.phase.isAdaptive) :
    (s.learn r e).phase = .polymorphic ∨ (s.learn r e).distinctShapes ≤ 1 := by
  have hafter : ({ s with distinctShapes := s.distinctShapes + 1 } : Site β).phaseAfterNewShape =
      .polymorphic ∨ s.distinctShapes + 1 ≤ 1 := by
    unfold phaseAfterNewShape
    dsimp only
    -- a cold site counts its first shape, any other one that learns is or becomes polymorphic
    cases h : s.phase with
    | cold => exact .inr (by rw [hcold h])
    | monomorphic =>
      dsimp only
      split
      · exact .inl rfl
      · exact .inr (by omega)
    | polymorphic => exact .inl rfl
    | megamorphic | frozen => rw [h] at hphase; rcases hphase with hphase | hphase <;> cases hphase
  rcases learn_eq (s := s) (r := r) (e := e) with heq | heq <;> rw [heq] <;> exact hafter

/-- What a site keeps is counted within the bound, or else the site is polymorphic, where the policy
will see that there were too many shapes. -/
theorem restrained_keep (h : s.Restrained p) (hs : s.Valid)
    (hmultiplier : 1 ≤ p.megamorphicMultiplier) (hphase : s.phase = .cold ∨ s.phase.isAdaptive) :
    (s.keep r e).phase = .polymorphic ∨ (s.keep r e).distinctShapes ≤
      Word.mulSat (s.keep r e).capacity p.megamorphicMultiplier := by
  -- the bound leaves room for one shape at least
  have hone : 1 ≤ Word.mulSat s.capacity p.megamorphicMultiplier :=
    Nat.le_min.mpr ⟨Nat.mul_pos hs.room hmultiplier, by decide⟩
  have hne : s.phase ≠ .megamorphic := by
    intro hmega
    rw [hmega] at hphase
    rcases hphase with hphase | hphase <;> cases hphase
  rw [capacity_keep hs]
  unfold Site.keep
  -- an entry that is replaced counts no shape, so only learning can pass the bound
  split
  · exact .inr (h.bound hne)
  · exact (learn_first_or_polymorphic h.cold hphase).imp_right fun hle => hle.trans hone

/-- What is kept is there. -/
theorem mem_entries_keep (hs : s.Valid) : e ∈ (s.keep r e).entries := by
  unfold Site.keep
  -- an entry of that shape was replaced in its slot, or the new one was put in front
  split
  · next old hold =>
    obtain ⟨free, hpacked⟩ := hs.packed
    have hslots : updateEntry e.shape (fun _ => e) s.slots =
        pack (s.entries.map fun x => if x.shape = e.shape then e else x) free := by
      conv_lhs => rw [hpacked, updateEntry_pack, onEntry_eq_map hs.condition.distinct]
    have hshape : old.shape = e.shape := by simpa using List.find?_some hold
    rw [entries_of_slots hslots]
    exact List.mem_map.mpr ⟨old, List.mem_of_find?_eq_some hold, if_pos hshape⟩
  · obtain ⟨n, -, hfill⟩ := fill_room (e := e) hs.room
    rcases learn_eq (s := s) (r := r) (e := e) with heq | heq <;>
      rw [heq, entries_of_slots (hfill _)] <;> exact List.mem_cons_self

/-! ## What the policy makes of a call that was booked -/

theorem restrained_follow (hphase : s.phase.isAdaptive)
    (h : s.phase = .polymorphic ∨
      s.distinctShapes ≤ Word.mulSat s.capacity p.megamorphicMultiplier) :
    (s.follow r (p.verdict s.evidence)).Restrained p := by
  have hcold : s.phase ≠ .cold := by
    intro hcold
    rw [hcold] at hphase
    cases hphase
  -- had it too many shapes, the site would be polymorphic and the policy would end it
  have hbound : p.verdict s.evidence ≠ .giveUp →
      s.distinctShapes ≤ Word.mulSat s.capacity p.megamorphicMultiplier := by
    intro hkeep
    rcases h with hpoly | hle
    · by_contra hmany
      refine hkeep (Policy.verdict_eq_giveUp_iff.mpr ⟨hphase, .inr ?_⟩)
      exact Policy.thrashes_iff.mpr ⟨hpoly, Nat.lt_of_not_le hmany⟩
    · exact hle
  -- whatever the verdict, what restrains the site is left as it is, or void once it gave up
  cases hverdict : p.verdict s.evidence with
  | keep => exact ⟨fun h => absurd h hcold, fun _ => hbound (by simp [hverdict])⟩
  | freeze =>
    refine ⟨fun h => ?_, fun _ => ?_⟩
    · rcases phase_freeze (s := s) (r := r) with hsame | hfrozen
      · exact absurd (hsame.symm.trans h) hcold
      · cases hfrozen.symm.trans h
    · show (s.freeze r).distinctShapes ≤ Word.mulSat (s.freeze r).capacity _
      rw [alike_freeze.distinctShapes, alike_freeze.capacity]
      exact hbound (by simp [hverdict])
  | giveUp =>
    refine ⟨fun h => ?_, fun h => absurd rfl h⟩
    cases h

/-- Once the policy was obeyed, it has nothing to add. Freezing does freeze the site, because an
entry is valid. -/
theorem verdict_follow (hcurrent : ∃ e ∈ s.entries, e.isCurrent r) :
    p.verdict (s.follow r (p.verdict s.evidence)).evidence = .keep := by
  -- a site that froze or gave up is not adaptive, and then the policy keeps it
  cases hverdict : p.verdict s.evidence with
  | keep => exact hverdict
  | freeze =>
    obtain ⟨e, he, hcur⟩ := hcurrent
    refine Policy.verdict_of_not_isAdaptive ?_
    show ¬ (s.freeze r).phase.isAdaptive
    unfold Site.freeze
    split
    · next hnil => exact absurd hcur (by simpa using List.filter_eq_nil_iff.mp hnil e he)
    · nofun
  | giveUp => exact Policy.verdict_of_not_isAdaptive nofun

/-- What the bookkeeping of a call can come to, as far as the policy is concerned. -/
inductive Booked (p : Policy) : Except DispatchError (Target β) × Site β × Resolver β → Prop
  | failed {err : DispatchError} {s : Site β} {q : Resolver β} (h : s.Restrained p) :
    Booked p (.error err, s, q)
  /-- The policy has nothing to say to the site. -/
  | exempt {t : Target β} {s : Site β} {q : Resolver β} (hphase : ¬ s.phase.isAdaptive)
    (h : s.Restrained p) : Booked p (.ok t, s, q)
  | asked {t : Target β} {s : Site β} {q : Resolver β} (hphase : s.phase.isAdaptive)
    (h : s.phase = .polymorphic ∨
      s.distinctShapes ≤ Word.mulSat s.capacity p.megamorphicMultiplier)
    (hcurrent : ∃ e ∈ s.entries, e.isCurrent q.registry) : Booked p (.ok t, s, q)

theorem Booked.restrained (h : Booked p out) : (consult p out).2.1.Restrained p := by
  cases h with
  | failed h => exact h
  | exempt hphase h =>
    show (Site.follow _ _ _).Restrained p
    rwa [follow_of_not_isAdaptive hphase]
  | asked hphase h => exact restrained_follow hphase h

theorem Booked.keep (h : Booked p out) (hok : out.1.isOk) :
    p.verdict (consult p out).2.1.evidence = .keep := by
  cases h with
  | failed => cases hok
  | exempt hphase =>
    refine Policy.verdict_of_not_isAdaptive ?_
    show ¬ (Site.follow _ _ _).phase.isAdaptive
    rwa [follow_of_not_isAdaptive hphase]
  | asked _ _ hcurrent => exact verdict_follow hcurrent

/-! ## Calls -/

section

variable (hs : s.Valid) (h : s.Restrained p) (hmultiplier : 1 ≤ p.megamorphicMultiplier)
include hs h hmultiplier

section

variable (hguard : ∀ found q', q.resolve s.access shape.receiver s.name shape.args =
  (.ok found, q') → found.guard.isCurrent q'.registry)
include hguard

theorem booked_bookMiss (hphase : s.phase = .cold ∨ s.phase.isAdaptive) :
    Booked p (s.bookMiss q shape) := by
  -- a failed resolution counts the question only
  rcases hq : q.resolve s.access shape.receiver s.name shape.args with ⟨err | found, q'⟩
  · have hbook : s.bookMiss q shape = (.error err, s.ask, q') := by
      simp only [bookMiss, Site.resolve, hq, ask]
    rw [hbook]
    exact .failed (h.of_eq rfl rfl rfl)
  · have hbook : s.bookMiss q shape = (.ok found.target,
        s.ask.keep q'.registry ⟨shape, found.target, found.guard, 0, s.calls⟩, q') := by
      simp only [bookMiss, Site.resolve, hq, ask]
    rw [hbook]
    have hask : s.ask.Restrained p := h.of_eq rfl rfl rfl
    exact .asked (hs.ask.keep hphase).2.1 (restrained_keep hask hs.ask hmultiplier hphase)
      ⟨_, mem_entries_keep hs.ask, hguard found q' hq⟩

/-- Calls are booked so that asking the policy afterwards makes sense. -/
theorem booked_book : Booked p (s.book q shape) := by
  have hcount : s.count.Restrained p := h.of_eq rfl rfl rfl
  unfold book
  -- By the phase: which calls ask the policy afterwards is decided by how they are served.
  cases hphase : s.phase with
  | cold => exact booked_bookMiss hs.count hcount hmultiplier hguard (.inl hphase)
  | megamorphic =>
    have hask : s.count.ask.Restrained p := hcount.of_eq rfl rfl rfl
    dsimp only
    rw [bypass_eq]
    cases (q.resolve s.count.access shape.receiver s.count.name shape.args).1 with
    | error => exact .failed hask
    | ok => exact .exempt (by simp [ask, count, hphase, Phase.isAdaptive]) hask
  | frozen =>
    dsimp only
    split
    · exact .exempt (by simp [Site.recordHit, count, hphase, Phase.isAdaptive])
        (hcount.of_eq rfl rfl (alike_recordHit hs.count).capacity)
    -- a frozen site that cannot serve thaws first, and is adaptive when it asks
    · obtain ⟨hvalid, hadaptive⟩ :
          (s.count.thaw shape).Valid ∧ (s.count.thaw shape).phase.isAdaptive :=
        hs.count.thaw hphase
      have hthaw : (s.count.thaw shape).Restrained p := by
        refine ⟨fun hcold => ?_, fun _ => ?_⟩
        · rw [hcold] at hadaptive
          cases hadaptive
        · rw [capacity_thaw]
          exact h.bound (by simp [hphase])
      exact booked_bookMiss hvalid hthaw hmultiplier hguard (.inr hadaptive)
  | monomorphic | polymorphic =>
    dsimp only
    split
    · next e he =>
      obtain ⟨hfind, hcur⟩ := Option.filter_eq_some_iff.mp he
      have hadaptive : (s.count.promote shape).phase.isAdaptive := by
        show s.phase.isAdaptive
        rw [hphase]
        rfl
      have hentry : Entry.hitBy shape s.count.calls e ∈ (s.count.promote shape).entries := by
        rw [entries_promote hs.count, toFront_perm.mem_iff]
        exact List.mem_map_of_mem (List.mem_of_find?_eq_some hfind)
      -- the entry that was hit is valid, and the hit counted no shape
      refine .asked hadaptive (.inr ?_) ⟨_, hentry, isCurrent_hitBy.trans hcur⟩
      rw [(alike_promote hs.count).distinctShapes, (alike_promote hs.count).capacity]
      exact h.bound (by simp [hphase])
    · exact booked_bookMiss hs.count hcount hmultiplier hguard (.inr (by
        show s.phase.isAdaptive
        rw [hphase]
        rfl))

end

end

/-! ## Calls are as if the policy was always obeyed -/

theorem miss_eq_consult : s.miss p q shape = consult p (s.bookMiss q shape) := by
  unfold miss bookMiss
  rcases s.resolve q shape with ⟨err | found, s', q'⟩ <;> rfl

theorem consult_of_not_isAdaptive (hphase : ¬ s.phase.isAdaptive)
    {a : Except DispatchError (Target β)} : consult p (a, s, q) = (a, s, q) := by
  cases a with
  | error => rfl
  | ok t => simp only [consult, follow_of_not_isAdaptive hphase]

/-- Unless the policy says to give up, it is enough to ask it whether to freeze, and only once there
were enough calls for that. -/
theorem considerFreezing_eq_follow (hkeep : p.verdict s.evidence ≠ .giveUp) :
    s.considerFreezing p r = s.follow r (p.verdict s.evidence) := by
  unfold considerFreezing
  cases hverdict : p.verdict s.evidence with
  | keep => simp [follow]
  | freeze =>
    have hcalls : p.optimizeThreshold < s.calls :=
      (Policy.isStable_iff.mp (Policy.verdict_eq_freeze_iff.mp hverdict).2.2).1
    simp [hcalls, follow]
  | giveUp => exact absurd hverdict hkeep

@[simp] theorem consult_fst : (consult p out).1 = out.1 := by
  rcases out with ⟨err | t, s, q⟩ <;> rfl

theorem dispatchShape_eq_obey (hs : s.Valid) (h : s.Restrained p) :
    s.dispatchShape p q shape = s.obey p q shape := by
  rw [dispatchShape_eq]
  unfold obey book
  -- A miss consults the policy on both sides, and a phase that is not adaptive is told nothing.
  -- Only after a hit in the slots does the site ask less: whether to freeze, not to give up.
  cases hphase : s.phase with
  | cold => exact miss_eq_consult
  | megamorphic =>
    dsimp only
    rw [bypass_eq, consult_of_not_isAdaptive (by simp [ask, count, hphase, Phase.isAdaptive])]
  | frozen =>
    dsimp only [serveFrozen]
    cases s.count.frozenFor? q.registry shape with
    | none => exact miss_eq_consult
    | some e =>
      dsimp only
      rw [consult_of_not_isAdaptive (by simp [Site.recordHit, count, hphase, Phase.isAdaptive])]
  | monomorphic | polymorphic =>
    dsimp only [serveAdaptive]
    cases s.count.currentFor? q.registry shape with
    | none => exact miss_eq_consult
    | some e =>
      -- the hit was counted, and no shape
      have hkeep : p.verdict (s.count.promote shape).evidence ≠ .giveUp := by
        refine Policy.verdict_ne_giveUp_of_hit (Nat.le_add_left 1 s.hits) ?_
        show (s.count.promote shape).distinctShapes ≤ Word.mulSat (s.count.promote shape).capacity _
        rw [(alike_promote hs.count).distinctShapes, (alike_promote hs.count).capacity]
        exact h.bound (by simp [hphase])
      dsimp only
      rw [considerFreezing_eq_follow hkeep]
      rfl

end Site

/-! ## Engines -/

namespace Engine

variable {β : Type} {g : Engine β} {key : SiteKey} {s : Site β} {receiver : Value}
variable {args : List Value}

/-- A call through a site after which the policy is asked and obeyed. -/
def dispatchObeying (g : Engine β) (key : SiteKey) (receiver : Value) (args : List Value) :
    Option (Except DispatchError (Target β)) × Engine β :=
  match g.sites.get? key with
  | none => (none, g)
  | some s =>
    let (result, s, resolver) := s.obey g.policy g.resolver (.ofCall g.registry receiver args)
    (some result, { g with resolver, sites := g.sites.insert key s })

/-- An operation, where the policy is asked and obeyed after every call of the site of a key. -/
def performObeying (key : SiteKey) (g : Engine β) (op : Operation β) : Engine β :=
  match op with
  | .dispatch key' receiver args =>
    if key' = key then (g.dispatchObeying key receiver args).2 else g.perform op
  | op => g.perform op

/-- The site of a key, if there is one, counted few shapes or gave up. -/
def Restrained (g : Engine β) (key : SiteKey) : Prop :=
  ∀ s, g.sites.get? key = some s → s.Restrained g.policy

theorem booked_dispatch (hg : g.Launched) (hs : g.sites.get? key = some s)
    (h : s.Restrained g.policy) (receiver : Value) (args : List Value) :
    Site.Booked g.policy (s.book g.resolver (.ofCall g.registry receiver args)) := by
  refine Site.booked_book (hg.reachable.valid hs) h hg.multiplier fun found q' hq => ?_
  have hok : (g.resolve s.access receiver s.name args).1 = .ok found := congrArg Prod.fst hq
  have hafter : (g.resolve s.access receiver s.name args).2.registry = q'.registry :=
    congrArg (·.2.registry) hq
  exact hafter ▸ isCurrent_resolve hok

theorem dispatch_eq_obey (hg : g.Launched) (hs : g.sites.get? key = some s)
    (h : s.Restrained g.policy) : s.dispatch g.policy g.resolver receiver args =
      Site.consult g.policy (s.book g.resolver (.ofCall g.registry receiver args)) :=
  Site.dispatchShape_eq_obey (hg.reachable.valid hs) h

/-- A site stays restrained if the thresholds stay as they are. -/
theorem Restrained.perform (h : g.Restrained key) (hg : g.Launched) {op : Operation β}
    (hop : KeepsPolicy g op) : (g.perform op).Restrained key := by
  intro s' hs'
  rw [hop]
  -- of the operations, only calls and resets of the site touch it
  rcases sites_perform hg.reachable.unused hs' with
    ⟨s, hs, hmoves⟩ | ⟨-, ⟨id, access, name, room, rfl⟩, -⟩
  · cases hmoves with
    | rest => exact h s' hs
    | call =>
      rw [dispatch_eq_obey hg hs (h s hs)]
      exact (booked_dispatch hg hs (h s hs) _ _).restrained
    | reset => exact Site.restrained_of_fresh (.reset s)
  · exact Site.restrained_of_fresh (.created id access name room)

theorem Restrained.dispatchObeying (h : g.Restrained key) (hg : g.Launched) :
    g.dispatchObeying key receiver args = g.dispatch key receiver args := by
  unfold Engine.dispatchObeying Engine.dispatch
  cases hs : g.sites.get? key with
  | none => rfl
  | some s =>
    dsimp only
    rw [dispatch_eq_obey hg hs (h s hs)]
    rfl

theorem Restrained.performObeying (h : g.Restrained key) (hg : g.Launched) (op : Operation β) :
    g.performObeying key op = g.perform op := by
  cases op with
  | dispatch key' receiver args =>
    dsimp only [Engine.performObeying]
    split
    · next hkey => rw [h.dispatchObeying hg, hkey]; rfl
    · rfl
  | _ => rfl

/-- After an answered call of a restrained site, the policy has nothing to say. -/
theorem Restrained.keep (h : g.Restrained key) (hg : g.Launched) {t : Target β}
    (hok : (g.dispatch key receiver args).1 = some (.ok t)) :
    ∃ s, (g.dispatch key receiver args).2.sites.get? key = some s ∧
      g.policy.verdict s.evidence = .keep := by
  cases hs : g.sites.get? key with
  | none =>
    unfold Engine.dispatch at hok
    rw [hs] at hok
    cases hok
  | some s =>
    -- the call is the reference's call by now, whose booking tells what the policy will say
    have hbooked := booked_dispatch hg hs (h s hs) receiver args
    rw [dispatch_of_site hs, dispatch_eq_obey hg hs (h s hs)] at hok ⊢
    have hanswer : (s.book g.resolver (.ofCall g.registry receiver args)).1 = .ok t :=
      Site.consult_fst.symm.trans (Option.some.inj hok)
    refine ⟨_, (Table.get?_insert ..).trans (if_pos rfl), hbooked.keep ?_⟩
    rw [hanswer]
    rfl

/-- Operations that leave the thresholds as they are, one after another. -/
theorem Restrained.performAll (h : g.Restrained key) (hg : g.Launched) {ops : List (Operation β)}
    (hkeeps : ∀ n, ((ops.take n).foldl Engine.perform g).policy = g.policy) :
    ops.foldl (Engine.performObeying key) g = ops.foldl Engine.perform g ∧
      (ops.foldl Engine.perform g).Restrained key ∧ (ops.foldl Engine.perform g).Launched := by
  induction ops generalizing g with
  | nil => exact ⟨rfl, h, hg⟩
  | cons op rest ih =>
    have hop : KeepsPolicy g op := hkeeps 1
    simp only [List.foldl_cons, h.performObeying hg]
    refine ih (h.perform hg hop) (hg.perform op) fun n => ?_
    exact (hkeeps (n + 1)).trans hop.symm

/-- Only setting the thresholds changes them. -/
theorem policy_performAll {ops : List (Operation β)}
    (hops : ∀ op ∈ ops, ∀ changes, op ≠ .setPolicy changes) :
    (ops.foldl perform g).policy = g.policy := by
  induction ops generalizing g with
  | nil => rfl
  | cons op rest ih =>
    obtain ⟨hop, hrest⟩ := List.forall_mem_cons.mp hops
    refine (ih hrest).trans ?_
    rw [(frame_perform g op).1]
    split
    · next changes => exact absurd rfl (hop changes)
    · rfl

/-- From when the site of a key is created or reset, and as long as the thresholds stay as they are:
whatever is done, the engine is as if the policy had been asked and obeyed after every answered call
of the site; and asked again after the next answered call, it says nothing but `keep`. The policy
for arbitrary counters says the same, unless the site has as much room as there are words. -/
theorem Launched.obeys (hg : g.Launched) (hfresh : ∀ s, g.sites.get? key = some s → s.Fresh)
    {ops : List (Operation β)}
    (hkeeps : ∀ n, ((ops.take n).foldl Engine.perform g).policy = g.policy) :
    ops.foldl (performObeying key) g = ops.foldl Engine.perform g ∧
    ∀ receiver args t, ((ops.foldl Engine.perform g).dispatch key receiver args).1 = some (.ok t) →
      ∃ s, ((ops.foldl Engine.perform g).dispatch key receiver args).2.sites.get? key = some s ∧
        g.policy.verdict s.evidence = .keep ∧
        (s.capacity < Word.last → g.policy.decide s.evidence = .ok .keep) := by
  -- a fresh site is restrained, and every operation keeps it so
  have hstart : g.Restrained key := fun s hs => Site.restrained_of_fresh (hfresh s hs)
  obtain ⟨hsame, hend, hlaunched⟩ := hstart.performAll hg hkeeps
  have hpolicy : (ops.foldl Engine.perform g).policy = g.policy := by
    simpa using hkeeps ops.length
  refine ⟨hsame, fun receiver args t hok => ?_⟩
  obtain ⟨s, hs, hkeep⟩ := hend.keep hlaunched hok
  rw [hpolicy] at hkeep
  refine ⟨s, hs, hkeep, fun hroom => ?_⟩
  rw [Policy.decide_of_lt hroom, hkeep]

/-- Both classes are called and the first again, which freezes the site; then its class is
invalidated and called once more, which thaws the site. -/
def sampleTurns : List (Operation Unit) :=
  [ringCall ⟨8⟩, ringCall ⟨9⟩, ringCall ⟨8⟩, .invalidate ⟨8⟩, ringCall ⟨8⟩]

/-- The policy was obeyed all the time, and also in the call after that, with which the site gives
up. -/
theorem obeys_sampleTurns :
    sampleTurns.foldl (performObeying (.numbered 0)) sampleWarm =
      sampleTurns.foldl perform sampleWarm ∧
    ∃ s, ((sampleTurns.foldl perform sampleWarm).perform (ringCall ⟨9⟩)).sites.get?
        (.numbered 0) = some s ∧
      s.phase = .megamorphic ∧ sampleWarm.policy.decide s.evidence = .ok .keep := by
  have hfresh : ∀ s, sampleWarm.sites.get? (.numbered 0) = some s → s.Fresh := by
    rintro _ ⟨⟩
    exact .created 0 .method "m" 2
  have hkeeps : ∀ n, ((sampleTurns.take n).foldl perform sampleWarm).policy = sampleWarm.policy :=
    fun n => policy_performAll fun op hop => by
      have hmem : op ∈ sampleTurns := List.mem_of_mem_take hop
      simp only [sampleTurns, List.mem_cons, List.not_mem_nil, or_false] at hmem
      rcases hmem with rfl | rfl | rfl | rfl | rfl <;> nofun
  obtain ⟨hsame, hnext⟩ := launched_sampleWarm.obeys hfresh hkeeps
  obtain ⟨s, hs, -, hkeep⟩ := hnext (.object ⟨9, ⟨9⟩⟩) [] _ rfl
  have hsite : ∀ s, ((sampleTurns.foldl perform sampleWarm).perform (ringCall ⟨9⟩)).sites.get?
      (.numbered 0) = some s → s.phase = .megamorphic ∧ s.capacity < Word.last := by
    rintro _ ⟨⟩
    decide
  obtain ⟨hphase, hroom⟩ := hsite s hs
  exact ⟨hsame, s, hs, hphase, hkeep hroom⟩

end Engine

end LateBinding
