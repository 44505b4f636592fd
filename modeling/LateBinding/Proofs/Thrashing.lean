import LateBinding.Proofs.FreezingPoint

/-!
# The thrashing point

A site that is called for more shapes than fit, one after another and round again, drops each entry
before its shape comes back. So no call ever hits, whatever the site freezes and thaws meanwhile,
and the site gives up at a call that the thresholds and its room determine
(`Engine.Logged.thrashing_point`). No site gives up earlier, whatever it is called with
(`Engine.Logged.patient`).
-/

namespace LateBinding

/-! ## Rotations -/

namespace Shape

variable {x : Shape} {shapes heard : List Shape} {room : Nat}

/-- The calls go through the shapes in turn, round and round. The latest call stands first. -/
def Rotates (shapes heard : List Shape) : Prop :=
  ∀ i < heard.length, heard.reverse[i]? = shapes[i % shapes.length]?

instance (shapes heard : List Shape) : Decidable (Rotates shapes heard) :=
  inferInstanceAs (Decidable (∀ i < heard.length, heard.reverse[i]? = shapes[i % shapes.length]?))

theorem Rotates.tail (h : Rotates shapes (x :: heard)) : Rotates shapes heard := by
  intro i hi
  rw [← h i (Nat.lt_succ_of_lt hi), List.reverse_cons,
    List.getElem?_append_left (by rwa [List.length_reverse])]

/-- A shape comes back after all others. -/
theorem Rotates.not_mem_take (h : Rotates shapes (x :: heard)) (hnodup : shapes.Nodup)
    (hroom : room < shapes.length) : x ∉ heard.take room := by
  -- were the shape among the latest, two calls for it would be less than a round apart
  intro hx
  obtain ⟨j, hj⟩ := List.mem_iff_getElem?.mp hx
  obtain ⟨hjroom, hjx⟩ : j < room ∧ heard[j]? = some x := by
    rw [List.getElem?_take] at hj
    split at hj
    · next hlt => exact ⟨hlt, hj⟩
    · cases hj
  obtain ⟨hjlt, -⟩ := List.getElem?_eq_some_iff.mp hjx
  -- the places of the two calls in the rotation
  have hpos : 0 < shapes.length := by omega
  have hnow : shapes[heard.length % shapes.length]? = some x := by
    rw [← h heard.length (Nat.lt_succ_self _), List.reverse_cons,
      List.getElem?_append_right (by rw [List.length_reverse]), List.length_reverse, Nat.sub_self]
    rfl
  have hthen : shapes[(heard.length - 1 - j) % shapes.length]? = some x := by
    rw [← h.tail _ (by omega), List.getElem?_reverse (by omega)]
    rwa [show heard.length - 1 - (heard.length - 1 - j) = j by omega]
  have hsame : heard.length % shapes.length = (heard.length - 1 - j) % shapes.length := by
    obtain ⟨hlt, hget⟩ := List.getElem?_eq_some_iff.mp hnow
    obtain ⟨hlt', hget'⟩ := List.getElem?_eq_some_iff.mp hthen
    exact (hnodup.getElem_inj_iff).mp (hget.trans hget'.symm)
  -- the places are equal up to whole rounds, and at least one of these lies between
  have hround : (heard.length - (heard.length - 1 - j)) % shapes.length = 0 :=
    Nat.sub_mod_eq_zero_of_mod_eq hsame
  have hle := Nat.le_of_dvd (by omega) (Nat.dvd_of_mod_eq_zero hround)
  omega

/-- In a rotation, the shapes called last are those of the last calls. -/
theorem Rotates.take_latest (h : Rotates shapes heard) (hnodup : shapes.Nodup)
    (hpos : 1 ≤ room) (hroom : room < shapes.length) :
    (latest heard).take room = heard.take room := by
  induction heard with
  | nil => rfl
  | cons x before ih =>
    have hnew := h.not_mem_take hnodup hroom
    have hsame : (before.take room).filter (· ≠ x) = before.take room :=
      List.filter_eq_self.mpr fun y hy => by simpa using fun hyx : y = x => hnew (hyx ▸ hy)
    obtain ⟨n, rfl⟩ := Nat.exists_eq_add_of_le' hpos
    rw [take_latest_cons hpos, ih h.tail, touch, hsame, List.take_succ_cons, List.take_succ_cons,
      List.take_take, Nat.min_eq_left (Nat.le_succ n)]

end Shape

/-! ## Giving up -/

/-- The number of the call at which a site gives up that never hits. -/
def Policy.thrashPoint (p : Policy) (room : Nat) : Nat :=
  if p.fallbackThreshold = 0 then Word.mulSat room p.megamorphicMultiplier + 1
  else min (max p.fallbackThreshold (room + 1)) (Word.mulSat room p.megamorphicMultiplier + 1)

theorem Policy.one_lt_thrashPoint {p : Policy} {room : Nat} (hpos : 1 ≤ room)
    (hmultiplier : 1 ≤ p.megamorphicMultiplier) : 1 < p.thrashPoint room := by
  have hsat : 1 ≤ Word.mulSat room p.megamorphicMultiplier :=
    Nat.le_min.mpr ⟨Nat.mul_pos hpos hmultiplier, by decide⟩
  unfold Policy.thrashPoint
  split <;> omega

/-- The policy gives up on no site before the thrashing point. -/
theorem Policy.thrashPoint_le_of_giveUp {p : Policy} {e : Evidence}
    (h : p.verdict e = .giveUp) : p.thrashPoint e.capacity ≤ e.distinctShapes := by
  unfold Policy.thrashPoint
  rcases (Policy.verdict_eq_giveUp_iff.mp h).2 with hfails | hthrashes
  · obtain ⟨hfallback, -, hmet⟩ := Policy.failsFromStart_iff.mp hfails
    rw [if_neg hfallback.ne']
    exact (Nat.min_le_left _ _).trans hmet
  · have hmet := (Policy.thrashes_iff.mp hthrashes).2
    split
    · exact hmet
    · exact (Nat.min_le_right _ _).trans hmet

namespace Site

variable {β : Type} {s : Site β} {p : Policy} {x : Shape}

/-- The policy gives up on a site that never hit exactly from the thrashing point on. -/
theorem giveUp_learnt_iff (found : Resolution β) (hmultiplier : 1 ≤ p.megamorphicMultiplier)
    (hpos : 1 ≤ s.capacity) (hhits : s.hits = 0)
    (hcold : s.phase = .cold → s.distinctShapes = 0) :
    p.verdict (s.learnt x found).evidence = .giveUp ↔
      p.thrashPoint s.capacity ≤ s.distinctShapes + 1 := by
  have hone := Policy.one_lt_thrashPoint hpos hmultiplier
  have hfails : p.failsFromStart (s.learnt x found).evidence ↔
      0 < p.fallbackThreshold ∧
        max p.fallbackThreshold (s.capacity + 1) ≤ s.distinctShapes + 1 := by
    simp only [Policy.failsFromStart_iff, evidence, capacity_learnt]
    simp only [learnt, refused, hhits, true_and]
  rw [Policy.verdict_eq_giveUp_iff, hfails]
  by_cases hphase : s.phase = .cold
  · -- the first call cannot be one too many
    have hzero := hcold hphase
    have hmono : (s.learnt x found).phase = .monomorphic := if_pos hphase
    have hthrashes : ¬ p.thrashes (s.learnt x found).evidence := by
      simp [Policy.thrashes_iff, evidence, hmono]
    rw [hzero]
    constructor
    · rintro ⟨-, ⟨-, hmax⟩ | h⟩
      · omega
      · exact absurd h hthrashes
    · intro hle
      omega
  -- from the second shape on the site is polymorphic, and either threshold can be the one it meets
  · have hpoly : (s.learnt x found).phase = .polymorphic := if_neg hphase
    have hthrashes : p.thrashes (s.learnt x found).evidence ↔
        Word.mulSat s.capacity p.megamorphicMultiplier < s.distinctShapes + 1 := by
      simp only [Policy.thrashes_iff, evidence, hpoly, capacity_learnt, true_and]
      rfl
    have hadaptive : (s.learnt x found).evidence.phase.isAdaptive := by
      show (s.learnt x found).phase.isAdaptive
      rw [hpoly]
      rfl
    rw [hthrashes, Policy.thrashPoint]
    simp only [hadaptive, true_and]
    split <;> omega

theorem phase_heed_learnt (found : Resolution β) (v : Verdict) :
    ((s.learnt x found).heed v).phase ≠ .cold ∧
    (((s.learnt x found).heed v).phase = .megamorphic ↔ v = .giveUp) := by
  have hlearnt : (s.learnt x found).phase = .monomorphic ∨
      (s.learnt x found).phase = .polymorphic := by
    by_cases hphase : s.phase = .cold
    · exact .inl (if_pos hphase)
    · exact .inr (if_neg hphase)
  cases v with
  | keep => rcases hlearnt with h | h <;> simp [heed, h]
  | freeze => simp [heed, frosted]
  | giveUp => simp [heed, giveUp]

/-! ## Before the thrashing point -/

/-- The site counted no more shapes than calls, and gave up only if there were enough calls for
that. -/
structure Patient (s : Site β) (p : Policy) (room : Nat) (calls : Nat) : Prop where
  capacity : s.capacity = room
  distinctShapes : s.distinctShapes ≤ calls
  gaveUp : s.phase = .megamorphic → p.thrashPoint room ≤ calls

/-- A call at a site whose entries are valid counts one shape at most, and the site gives up only if
there are as many as the thrashing point says. -/
theorem Turn.patient {q : Resolver β} {room calls : Nat}
    {out : Except DispatchError (Target β) × Site β × Resolver β} (hs : s.Valid)
    (hphase : s.phase ≠ .megamorphic) (hturn : s.Turn p q x out)
    (h : s.Patient p room calls) : out.2.1.Patient p room (calls + 1) := by
  have hshapes := h.distinctShapes
  have hcapacity := (hturn.capacity hs).trans h.capacity
  -- Of the kinds of turns only one that learns counts a shape, and only it can make the site give
  -- up.
  cases hturn with
  | held =>
    exact ⟨hcapacity, Nat.le_succ_of_le hshapes, fun hmega => absurd hmega hphase⟩
  | promoted =>
    refine ⟨hcapacity, ?_, fun hmega => ?_⟩
    · dsimp only
      split <;> exact Nat.le_succ_of_le hshapes
    · dsimp only at hmega
      split at hmega
      · cases hmega
      · exact absurd hmega hphase
  | refused =>
    refine ⟨hcapacity, Nat.le_succ_of_le hshapes, fun hmega => ?_⟩
    rcases (phase_refused hphase).2 with hcold | hadaptive
    · cases hmega.symm.trans hcold
    · rw [show s.refused.phase = .megamorphic from hmega] at hadaptive
      cases hadaptive
  | @learned found =>
    have hmet : ((s.learnt x found).heed
        (p.verdict (s.learnt x found).evidence)).distinctShapes = s.distinctShapes + 1 :=
      distinctShapes_heed _ _
    refine ⟨hcapacity, hmet.trans_le (Nat.succ_le_succ hshapes), fun hmega => ?_⟩
    have hlearnt : (s.learnt x found).evidence.capacity = room :=
      capacity_learnt.trans h.capacity
    have hpoint := Policy.thrashPoint_le_of_giveUp ((phase_heed_learnt found _).2.mp hmega)
    rw [hlearnt] at hpoint
    exact hpoint.trans (Nat.succ_le_succ hshapes)

/-! ## In a rotation -/

/-- The site never hit, and it gave up if there were enough calls for that. -/
structure Thrashed (s : Site β) (p : Policy) (room : Nat) (log : List (Call β)) : Prop where
  hits : s.hits = 0
  misses : s.misses = log.length
  missed : ∀ c ∈ log, c.hit = false ∧ c.answer = c.resolved
  cold : s.phase = .cold → log = []
  distinctShapes : s.phase ≠ .megamorphic → s.distinctShapes = log.length
  gaveUp : s.phase = .megamorphic ↔ p.thrashPoint room ≤ log.length

theorem thrashed_create {id : Nat} {access : Access} {name : String} {room : Nat}
    (hmultiplier : 1 ≤ p.megamorphicMultiplier) :
    (create id access name room : Site β).Thrashed p (max room 1) [] := by
  have hone := Policy.one_lt_thrashPoint (Nat.le_max_right room 1) hmultiplier
  refine ⟨rfl, rfl, by simp, fun _ => rfl, fun _ => rfl, fun hmega => ?_, fun hle => ?_⟩
  · cases hmega
  · rw [List.length_nil] at hle
    omega

/-- A site that gave up answers what a resolution comes to. -/
theorem answer_of_megamorphic {q : Resolver β} (hphase : s.phase = .megamorphic) :
    (s.dispatchShape p q x).1 =
      (q.resolve s.access x.receiver s.name x.args).1.map (·.target) := by
  rw [dispatchShape_eq, hphase]
  dsimp only
  rw [bypass_eq]
  rfl

end Site

namespace Engine

variable {β : Type} {g g₀ : Engine β} {key : SiteKey} {s : Site β} {log : List (Call β)}
variable {receiver : Value} {args : List Value} {room first : Nat} {shapes : List Shape}

/-- A call whose answer is that of a resolution is answered if it can be resolved. -/
theorem answered_of_missed (hresolvable : ∀ c ∈ log, c.resolved.isOk)
    (hmissed : ∀ c ∈ log, c.hit = false ∧ c.answer = c.resolved) : ∀ c ∈ log, c.answer.isOk := by
  intro c hc
  rw [(hmissed c hc).2]
  exact hresolvable c hc

/-- A call leaves a site patient. -/
theorem patient_call {calls : Nat} (hg : g.Reachable) (hs : g.sites.get? key = some s)
    (hcurrent : s.Current g.registry) (h : s.Patient g.policy room calls) :
    (s.dispatch g.policy g.resolver receiver args).2.1.Patient g.policy room (calls + 1) := by
  by_cases hphase : s.phase = .megamorphic
  · have hafter : (s.dispatch g.policy g.resolver receiver args).2.1 = s.count.ask :=
      Site.dispatchShape_of_megamorphic hphase
    rw [hafter]
    exact ⟨h.capacity, Nat.le_succ_of_le h.distinctShapes,
      fun _ => Nat.le_succ_of_le (h.gaveUp hphase)⟩
  · exact (turn_dispatch receiver args hg hs hcurrent hphase).patient (hg.valid hs) hphase h

/-- A site that was just created gives up no earlier than at the thrashing point, whatever it is
called with. -/
theorem Logged.patient {id : Nat} {access : Access} {name : String}
    (h : Logged KeepsPolicy key g₀ g log) (hg : g₀.Reachable)
    (hs₀ : g₀.sites.get? key = some (.create id access name room)) :
    ∃ s, g.sites.get? key = some s ∧ s.Patient g₀.policy (max room 1) log.length := by
  have hstart : (Site.create id access name room : Site β).Patient g₀.policy (max room 1) 0 :=
    ⟨capacity_create id access name, Nat.le_refl 0, nofun⟩
  obtain ⟨s, hs, -, hpatient⟩ := h.carry
    -- the bound is the invariant that the log carries along, from a site that never was called
    (P := fun s log => s.Patient g₀.policy (max room 1) log.length) hg hs₀
    (Site.current_of_empty (entries_of_fresh (.created id access name room))) hstart
    fun h hs hcurrent hpatient => by
      rw [← h.policy] at hpatient ⊢
      exact patient_call (h.reachable hg) hs hcurrent hpatient
  exact ⟨s, hs, hpatient⟩

/-- A shape that comes back in a rotation has no entry any more. -/
theorem Caches.not_mem_shapes (h : Caches s room first log) (hphase : s.phase ≠ .megamorphic)
    (hanswered : ∀ c ∈ log, c.answer.isOk) (hpos : 1 ≤ room) (hnodup : shapes.Nodup)
    (hmore : room < shapes.length) {x : Shape}
    (hrotates : Shape.Rotates shapes (x :: log.map (·.shape))) : x ∉ s.shapes := by
  have hperm := (h.ranked hphase).perm
  rw [heard_of_answered hanswered, hrotates.tail.take_latest hnodup hpos hmore] at hperm
  rw [hperm.mem_iff]
  exact hrotates.not_mem_take hnodup hmore

/-- A call in a rotation misses, and the site gives up at the thrashing point. -/
theorem thrashed_call (hg : g.Reachable) (hs : g.sites.get? key = some s)
    (hcurrent : s.Current g.registry) (hcaches : Caches s room first log)
    (hmultiplier : 1 ≤ g.policy.megamorphicMultiplier) (hnodup : shapes.Nodup)
    (hmore : room < shapes.length)
    (hrotates : Shape.Rotates shapes ((g.noted s receiver args :: log).map (·.shape)))
    (hresolvable : ∀ c ∈ g.noted s receiver args :: log, c.resolved.isOk)
    (h : s.Thrashed g.policy room log) :
    (s.dispatch g.policy g.resolver receiver args).2.1.Thrashed g.policy room
      (g.noted s receiver args :: log) := by
  have hvalid := hg.valid hs
  have hresolved : ((g.resolver.resolve s.access (.ofValue g.registry receiver) s.name
      (.ofArgs args)).1.map (·.target)).isOk := hresolvable _ List.mem_cons_self
  -- the call is noted as one that missed
  have hmissed : (s.dispatch g.policy g.resolver receiver args).2.1.hits = s.hits →
      (s.dispatch g.policy g.resolver receiver args).1 =
        (g.resolver.resolve s.access (.ofValue g.registry receiver) s.name
          (.ofArgs args)).1.map (·.target) →
      ∀ c ∈ g.noted s receiver args :: log, c.hit = false ∧ c.answer = c.resolved := by
    intro hhits hanswer c hc
    rcases List.mem_cons.mp hc with rfl | hc
    · refine ⟨?_, hanswer⟩
      simp only [noted, hhits, Nat.lt_irrefl, decide_false]
    · exact h.missed c hc
  -- a site that gave up asks for everything; one that did not cannot have the shape, which was last
  -- heard a round ago
  by_cases hphase : s.phase = .megamorphic
  · have hafter : (s.dispatch g.policy g.resolver receiver args).2.1 = s.count.ask :=
      Site.dispatchShape_of_megamorphic hphase
    have hmega : s.count.ask.phase = .megamorphic := hphase
    rw [hafter] at hmissed ⊢
    refine ⟨h.hits, ?_, hmissed rfl (Site.answer_of_megamorphic hphase), fun hcold => ?_,
      absurd hmega, fun _ => ?_, fun _ => hmega⟩
    · exact congrArg (· + 1) h.misses
    · cases hmega.symm.trans hcold
    · exact Nat.le_succ_of_le (h.gaveUp.mp hphase)
  · have hturn := turn_dispatch receiver args hg hs hcurrent hphase
    have hpos : 1 ≤ room := hcaches.capacity ▸ hvalid.room
    have hnew : .ofCall g.registry receiver args ∉ s.shapes :=
      hcaches.not_mem_shapes hphase (answered_of_missed (fun c hc =>
        hresolvable c (List.mem_cons_of_mem _ hc)) h.missed) hpos hnodup hmore hrotates
    obtain ⟨hanswer, -⟩ := hturn.asked hnew
    have hok : (s.dispatch g.policy g.resolver receiver args).1.isOk := hanswer ▸ hresolved
    obtain ⟨found, hafter, hgained⟩ := hturn.gained hnew hok
    -- so the shape is learned, and with it the site gives up if that is the thrashing point
    have hgiveUp := Site.giveUp_learnt_iff (p := g.policy)
      (x := .ofCall g.registry receiver args) found hmultiplier hvalid.room h.hits
      (fun hcold => by rw [h.distinctShapes hphase, h.cold hcold]; rfl)
    rw [hcaches.capacity, h.distinctShapes hphase] at hgiveUp
    obtain ⟨hcold, hmega⟩ := Site.phase_heed_learnt (s := s)
      (x := .ofCall g.registry receiver args) found
      (g.policy.verdict (s.learnt (.ofCall g.registry receiver args) found).evidence)
    rw [← hafter] at hcold hmega
    refine ⟨hgained.hits.trans h.hits, ?_, hmissed hgained.hits hanswer,
      fun hphase' => absurd hphase' hcold, fun _ => ?_, hmega.trans hgiveUp⟩
    · rw [hgained.misses, h.misses, List.length_cons]
    · rw [hgained.distinctShapes, h.distinctShapes hphase, List.length_cons]

/-! ## Logs -/

/-- The site caches the calls that it got, and never hit if they go round more shapes than fit. -/
structure Spins (s : Site β) (p : Policy) (room : Nat) (shapes : List Shape)
    (log : List (Call β)) : Prop where
  caches : Caches s room 0 log
  thrashed : Shape.Rotates shapes (log.map (·.shape)) → (∀ c ∈ log, c.resolved.isOk) →
    s.Thrashed p room log

theorem Spins.call (hg : g.Launched) (hs : g.sites.get? key = some s)
    (hcurrent : s.Current g.registry) (hnodup : shapes.Nodup) (hmore : room < shapes.length)
    (h : Spins s g.policy room shapes log) :
    Spins (s.dispatch g.policy g.resolver receiver args).2.1 g.policy room shapes
      (g.noted s receiver args :: log) where
  caches := h.caches.call hg.reachable hs hcurrent
  thrashed hrotates hresolvable :=
    thrashed_call hg.reachable hs hcurrent h.caches hg.multiplier hnodup hmore hrotates
      hresolvable (h.thrashed hrotates.tail fun c hc => hresolvable c (List.mem_cons_of_mem _ hc))

/-- The thrashing point. A site that was just created is called for more shapes than fit, in turn,
round and round; each could be resolved when it was called; no version changes under the entries of
the site and the thresholds stay. Then no call hits, each answers what a resolution comes to, and
the site gives up at the thrashing point and for ever, but not before; and then it keeps nothing. -/
theorem Logged.thrashing_point {id : Nat} {access : Access} {name : String}
    (h : Logged KeepsPolicy key g₀ g log) (hg : g₀.Launched)
    (hs₀ : g₀.sites.get? key = some (.create id access name room))
    (hnodup : shapes.Nodup) (hmore : max room 1 < shapes.length)
    (hrotates : Shape.Rotates shapes (log.map (·.shape)))
    (hresolvable : ∀ c ∈ log, c.resolved.isOk) :
    ∃ s, g.sites.get? key = some s ∧ s.hits = 0 ∧ s.misses = log.length ∧
      (∀ c ∈ log, c.hit = false ∧ c.answer = c.resolved) ∧
      (s.phase = .megamorphic ↔ g₀.policy.thrashPoint (max room 1) ≤ log.length) ∧
      (s.phase = .megamorphic → s.live = []) := by
  have hstart : Spins (.create id access name room) g₀.policy (max room 1) shapes
      ([] : List (Call β)) :=
    ⟨caches_create id access name, fun _ _ => Site.thrashed_create hg.multiplier⟩
  -- that every call so far missed is the invariant, under the premise that they rotate
  obtain ⟨s, hs, -, hspins⟩ := h.carry
    (P := fun s log => Spins s g₀.policy (max room 1) shapes log) hg.reachable hs₀
    (Site.current_of_empty (entries_of_fresh (.created id access name room))) hstart
    fun h hs hcurrent hspins => by
      rw [← h.policy] at hspins ⊢
      exact hspins.call (hg.logged h) hs hcurrent hnodup hmore
  have hthrashed := hspins.thrashed hrotates hresolvable
  refine ⟨s, hs, hthrashed.hits, hthrashed.misses, hthrashed.missed, hthrashed.gaveUp, ?_⟩
  intro hmega
  have hempty := ((hg.logged h).reachable.valid hs).condition.in_phase.1 (.inr hmega)
  rw [Site.live, hmega]
  exact hempty

/-- A site with room for one shape, for two classes. It gives up when it met three shapes. -/
def sampleTight : Engine Unit :=
  (sampleRing.perform (.attach 1 .method "m" 1)).perform (.setPolicy [(.multiplier, 2)])

/-- A call of that site for an instance of a class. -/
def tightCall (c : ClassRef) : Operation Unit := .dispatch (.detached 0) (.object ⟨c.index, c⟩) []

theorem launched_sampleTight : sampleTight.Launched :=
  ⟨⟨2, 0, 0, 1, 0, true, 4096⟩, _, rfl,
    .tail (.tail (.tail (.tail (.tail .refl ⟨_, trivial, rfl⟩) ⟨_, trivial, rfl⟩)
      ⟨_, trivial, rfl⟩) ⟨_, trivial, rfl⟩) ⟨_, trivial, rfl⟩⟩

/-- Called for the two classes in turn, the site gives up at the third call. -/
theorem thrashing_point_sampleTight : ∃ g s s',
    Run Anything sampleTight g ∧ g.sites.get? (.detached 0) = some s ∧ s.phase ≠ .megamorphic ∧
    (g.perform (tightCall ⟨8⟩)).sites.get? (.detached 0) = some s' ∧ s'.phase = .megamorphic ∧
    s'.hits = 0 ∧ s'.live = [] := by
  have hfirst : Logged KeepsPolicy (.detached 0) sampleTight
      (sampleTight.perform (tightCall ⟨8⟩)) _ := .call .start rfl
  have hsecond : Logged KeepsPolicy (.detached 0) sampleTight
      ((sampleTight.perform (tightCall ⟨8⟩)).perform (tightCall ⟨9⟩)) _ := .call hfirst rfl
  have hthird : Logged KeepsPolicy (.detached 0) sampleTight
      (((sampleTight.perform (tightCall ⟨8⟩)).perform (tightCall ⟨9⟩)).perform (tightCall ⟨8⟩)) _ :=
    .call hsecond rfl
  have hsite : sampleTight.sites.get? (.detached 0) = some (.create 1 .method "m" 1) := rfl
  have hnodup : [ringShape ⟨8⟩, ringShape ⟨9⟩].Nodup := by decide
  obtain ⟨s, hs, -, -, -, hpoint, -⟩ := hsecond.thrashing_point launched_sampleTight hsite
    hnodup (by decide) (by decide) (by decide)
  obtain ⟨s', hs', hhits, -, -, hpoint', hlive⟩ := hthird.thrashing_point launched_sampleTight hsite
    hnodup (by decide) (by decide) (by decide)
  have hmega : s'.phase = .megamorphic := by
    rw [hpoint']
    decide
  refine ⟨_, s, s', .tail (.tail .refl ⟨_, trivial, rfl⟩) ⟨_, trivial, rfl⟩, hs, ?_, hs', hmega,
    hhits, hlive hmega⟩
  rw [Ne, hpoint]
  decide

end Engine

end LateBinding
