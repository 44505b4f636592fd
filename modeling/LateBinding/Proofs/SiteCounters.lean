import LateBinding.Proofs.Sites

/-!
# What a call site counts

A call is counted in many places: where a slot or a frozen entry serves it, where it is resolved,
where the site freezes, thaws or gives up after it. Here it is shown what all of these come to: a
call adds one to the calls and one to either hits or misses, and freezes are balanced by thaws.

* `Site.Quiet`: parts of a call that count no call; `Site.Counted`: a whole call.
* `Site.Event`: a call or a reset, as it is noted in the diary of a site.
* `Site.Balanced`: the counters of a site are those of its diary. Calls and resets keep it so
  (`Balanced.call`, `Balanced.reset`).
-/

namespace LateBinding

namespace Site

variable {β : Type} {s s' s'' : Site β} {e : Entry β} {shape : Shape}
variable {p : Policy} {r : Registry β} {q : Resolver β}

/-! ## Parts of a call -/

/-- One while the site is frozen. -/
def ice (s : Site β) : Nat := if s.phase = .frozen then 1 else 0

theorem ice_of_frozen (h : s.phase = .frozen) : s.ice = 1 := if_pos h

theorem ice_of_not_frozen (h : s.phase ≠ .frozen) : s.ice = 0 := if_neg h

/-- `s'` comes of `s` by no call, resolution or reset, and each time it froze or thawed was
counted. -/
structure Quiet (s' s : Site β) : Prop where
  calls : s'.calls = s.calls
  hits : s'.hits = s.hits
  misses : s'.misses = s.misses
  resolutions : s'.resolutions = s.resolutions
  ice : s'.freezes + (s.thaws + s.ice) = s.freezes + (s'.thaws + s'.ice)

theorem Quiet.refl (s : Site β) : s.Quiet s := ⟨rfl, rfl, rfl, rfl, rfl⟩

theorem Quiet.trans (h' : s''.Quiet s') (h : s'.Quiet s) : s''.Quiet s where
  calls := h'.calls.trans h.calls
  hits := h'.hits.trans h.hits
  misses := h'.misses.trans h.misses
  resolutions := h'.resolutions.trans h.resolutions
  ice := by
    have := h'.ice
    have := h.ice
    omega

/-- That a resolution is counted in addition makes no difference. -/
theorem Quiet.ask (h : s'.Quiet s) : s'.ask.Quiet s.ask where
  calls := h.calls
  hits := h.hits
  misses := congrArg (· + 1) h.misses
  resolutions := congrArg (· + 1) h.resolutions
  ice := h.ice

theorem quiet_freeze (hphase : s.phase ≠ .frozen) : (s.freeze r).Quiet s := by
  unfold Site.freeze
  split
  · exact .refl s
  · refine ⟨rfl, rfl, rfl, rfl, ?_⟩
    rw [ice_of_not_frozen hphase, ice_of_frozen rfl]
    show s.freezes + 1 + (s.thaws + 0) = s.freezes + (s.thaws + 1)
    omega

theorem phase_thaw_ne_frozen : (s.thaw shape).phase ≠ .frozen := by
  unfold Site.thaw
  dsimp only
  split <;> exact nofun

theorem quiet_thaw (hphase : s.phase = .frozen) (shape : Shape) : (s.thaw shape).Quiet s := by
  refine ⟨rfl, rfl, rfl, rfl, ?_⟩
  rw [ice_of_frozen hphase, ice_of_not_frozen phase_thaw_ne_frozen]
  show s.freezes + (s.thaws + 1) = s.freezes + (s.thaws + 1 + 0)
  rfl

theorem quiet_giveUp (hphase : s.phase ≠ .frozen) : s.giveUp.Quiet s := by
  refine ⟨rfl, rfl, rfl, rfl, ?_⟩
  rw [ice_of_not_frozen hphase]
  rfl

theorem quiet_follow {v : Verdict} (hphase : s.phase ≠ .frozen) : (s.follow r v).Quiet s := by
  cases v with
  | keep => exact .refl s
  | freeze => exact quiet_freeze hphase
  | giveUp => exact quiet_giveUp hphase

theorem phaseAfterNewShape_ne_frozen (hphase : s.phase ≠ .frozen) :
    s.phaseAfterNewShape ≠ .frozen := by
  unfold phaseAfterNewShape
  split
  · exact nofun
  · split <;> exact nofun
  · exact hphase

/-- Keeping an entry counts shapes only, and does not freeze the site. -/
theorem quiet_keep (hphase : s.phase ≠ .frozen) :
    (s.keep r e).Quiet s ∧ (s.keep r e).phase ≠ .frozen := by
  -- all ways to keep an entry leave the seven fields that matter alone
  have hquiet : ∀ s' : Site β, s'.calls = s.calls → s'.hits = s.hits → s'.misses = s.misses →
      s'.resolutions = s.resolutions → s'.freezes = s.freezes → s'.thaws = s.thaws →
      s'.phase ≠ .frozen → s'.Quiet s ∧ s'.phase ≠ .frozen := by
    intro s' hcalls hhits hmisses hresolutions hfreezes hthaws hphase'
    refine ⟨⟨hcalls, hhits, hmisses, hresolutions, ?_⟩, hphase'⟩
    rw [ice_of_not_frozen hphase, ice_of_not_frozen hphase', hfreezes, hthaws]
  unfold Site.keep
  split
  · exact hquiet _ rfl rfl rfl rfl rfl rfl hphase
  · have hlearned :
        ({ s with distinctShapes := s.distinctShapes + 1 } : Site β).phaseAfterNewShape ≠ .frozen :=
      phaseAfterNewShape_ne_frozen hphase
    rcases learn_eq (s := s) (r := r) (e := e) with heq | heq <;> rw [heq]
    · exact hquiet _ rfl rfl rfl rfl rfl rfl hlearned
    · exact hquiet _ rfl rfl rfl rfl rfl rfl hlearned

theorem quiet_absorb (hphase : s.phase ≠ .frozen) (found : Resolution β) :
    (s.absorb p r shape found).Quiet s := by
  obtain ⟨hkeep, hkept⟩ :=
    quiet_keep (r := r) (e := ⟨shape, found.target, found.guard, 0, s.calls⟩) hphase
  exact (quiet_follow hkept).trans hkeep

theorem quiet_considerFreezing (hphase : s.phase ≠ .frozen) :
    (s.considerFreezing p r).Quiet s := by
  unfold considerFreezing
  split
  · exact quiet_freeze hphase
  · exact .refl s

/-! ## A call -/

/-- Whether the site serves calls of a shape from its entries. -/
def serves (s : Site β) (r : Registry β) (shape : Shape) : Bool :=
  match s.phase with
  | .cold | .megamorphic => false
  | .frozen => (s.frozenFor? r shape).isSome
  | .monomorphic | .polymorphic => (s.currentFor? r shape).isSome

/-- What a call leaves of a site and its resolver: it was served by the site, which is a hit, or
the resolver was asked, which is a miss. -/
inductive Counted (s : Site β) (q : Resolver β) (shape : Shape) : Site β → Resolver β → Prop
  | hit {s' : Site β} (hserves : s.serves q.registry shape = true)
      (h : s'.Quiet { s with calls := s.calls + 1, hits := s.hits + 1 }) :
      Counted s q shape s' q
  | miss {s' : Site β} (hserves : s.serves q.registry shape = false) (h : s'.Quiet s.count.ask) :
      Counted s q shape s' (q.resolve s.access shape.receiver s.name shape.args).2

/-- The resolver is asked on a miss only. -/
theorem Counted.resolver {q' : Resolver β} (h : s.Counted q shape s' q') :
    q' = if s.serves q.registry shape then q
      else (q.resolve s.access shape.receiver s.name shape.args).2 := by
  cases h with
  | hit hserves => rw [if_pos hserves]
  | miss hserves => simp [hserves]

theorem Counted.resolutions {q' : Resolver β} (h : s.Counted q shape s' q') :
    s'.resolutions = s.resolutions + if s.serves q.registry shape then 0 else 1 := by
  cases h with
  | hit hserves hq => rw [if_pos hserves, hq.resolutions]; rfl
  | miss hserves hq => rw [hq.resolutions]; simp [hserves, count, ask]

/-- A miss is counted once, whether the resolution fails or what it finds is kept. -/
theorem quiet_miss (hphase : s.phase ≠ .frozen) (p : Policy) (q : Resolver β)
    (shape : Shape) : (s.miss p q shape).2.1.Quiet s.ask ∧
    (s.miss p q shape).2.2 = (q.resolve s.access shape.receiver s.name shape.args).2 := by
  rcases hq : q.resolve s.access shape.receiver s.name shape.args with ⟨err | found, q'⟩
  · rw [miss_of_error hq]
    exact ⟨.refl _, rfl⟩
  · rw [miss_of_ok hq]
    exact ⟨quiet_absorb (s := s.ask) hphase found, rfl⟩

theorem counted_dispatchShape (s : Site β) (p : Policy) (q : Resolver β) (shape : Shape) :
    Counted s q shape (s.dispatchShape p q shape).2.1 (s.dispatchShape p q shape).2.2 := by
  rw [dispatchShape_eq]
  -- the site asks in all cases but a hit, and then its own part of the work is quiet
  cases hphase : s.phase with
  | cold =>
    obtain ⟨hquiet, hq⟩ := quiet_miss (s := s.count) (by simp [count, hphase]) p q shape
    dsimp only
    rw [hq]
    exact .miss (by simp [serves, hphase]) hquiet
  | megamorphic =>
    dsimp only
    rw [bypass_eq]
    exact .miss (by simp [serves, hphase]) (.refl _)
  | frozen =>
    dsimp only [serveFrozen]
    cases hentry : s.count.frozenFor? q.registry shape with
    | some e =>
      refine .hit ?_ ⟨rfl, rfl, rfl, rfl, rfl⟩
      simp only [serves, hphase]
      exact Option.isSome_iff_exists.mpr ⟨e, hentry⟩
    | none =>
      -- a thaw only spends ice, so it is quiet together with the miss that follows
      have hthaw := quiet_thaw (s := s.count) hphase shape
      obtain ⟨hquiet, hq⟩ := quiet_miss (s := s.count.thaw shape) phase_thaw_ne_frozen p q shape
      dsimp only
      rw [hq]
      have hnone : s.frozenFor? q.registry shape = none := hentry
      exact .miss (by simp [serves, hphase, hnone]) (hquiet.trans hthaw.ask)
  | monomorphic | polymorphic =>
    dsimp only [serveAdaptive]
    cases hentry : s.count.currentFor? q.registry shape with
    | some e =>
      refine .hit ?_ ?_
      · simp only [serves, hphase]
        exact Option.isSome_iff_exists.mpr ⟨e, hentry⟩
      -- a site that is not frozen may freeze on a hit, which is quiet as well
      · have hphase' : (s.count.promote shape).phase ≠ .frozen := by
          show s.phase ≠ .frozen
          simp [hphase]
        exact (quiet_considerFreezing hphase').trans ⟨rfl, rfl, rfl, rfl, rfl⟩
    | none =>
      obtain ⟨hquiet, hq⟩ := quiet_miss (s := s.count) (by simp [count, hphase]) p q shape
      dsimp only
      rw [hq]
      have hnone : s.currentFor? q.registry shape = none := hentry
      exact .miss (by simp [serves, hphase, hnone]) hquiet

/-! ## Diaries -/

/-- What is noted of a site: whether a call was served by it; and of a reset, what calls it had
counted and whether it was frozen. -/
inductive Event
  | call (served : Bool)
  | reset (calls : Nat) (frozen : Bool)
deriving DecidableEq

/-- The event is a call. -/
def Event.isCall : Event → Bool
  | .call _ => true
  | .reset .. => false

/-- The event is the reset of a frozen site. -/
def Event.isMelt : Event → Bool
  | .call _ => false
  | .reset _ frozen => frozen

@[simp] theorem Event.isCall_call (served : Bool) : (call served).isCall = true := rfl

@[simp] theorem Event.isCall_reset (calls : Nat) (frozen : Bool) :
    (reset calls frozen).isCall = false := rfl

@[simp] theorem Event.isMelt_call (served : Bool) : (call served).isMelt = false := rfl

@[simp] theorem Event.isMelt_reset (calls : Nat) (frozen : Bool) :
    (reset calls frozen).isMelt = frozen := rfl

/-- The calls that were counted when the site was reset last, none if it never was. The latest
event stands first. -/
def callsAtReset : List Event → Nat
  | [] => 0
  | .call _ :: before => callsAtReset before
  | .reset calls _ :: _ => calls

/-- The counters of a site are those of its diary: all calls; those since the last reset that it
served, and those that it did not; all that it did not serve; and for each time that it froze, a
time that it thawed or was reset, or that it still is frozen. -/
structure Balanced (s : Site β) (diary : List Event) : Prop where
  calls : s.calls = diary.countP Event.isCall
  sinceReset : s.calls = callsAtReset diary + (s.hits + s.misses)
  hits : s.hits = (diary.takeWhile Event.isCall).count (.call true)
  misses : s.misses = (diary.takeWhile Event.isCall).count (.call false)
  resolutions : s.resolutions = diary.count (.call false)
  freezes : s.freezes = s.thaws + diary.countP Event.isMelt + s.ice

variable {diary : List Event}

theorem balanced_create (id : Nat) (access : Access) (name : String) (room : Nat) :
    (create id access name room : Site β).Balanced [] :=
  ⟨rfl, rfl, rfl, rfl, rfl, rfl⟩

/-- Parts of a call that count no call need no note. -/
theorem Balanced.quiet (h : s.Balanced diary) (hq : s'.Quiet s) : s'.Balanced diary where
  calls := hq.calls.trans h.calls
  sinceReset := by rw [hq.calls, hq.hits, hq.misses, h.sinceReset]
  hits := hq.hits.trans h.hits
  misses := hq.misses.trans h.misses
  resolutions := hq.resolutions.trans h.resolutions
  freezes := by
    have := hq.ice
    have := h.freezes
    omega

theorem Balanced.hit (h : s.Balanced diary) :
    ({ s with calls := s.calls + 1, hits := s.hits + 1 } : Site β).Balanced
      (.call true :: diary) where
  calls := by simp [List.countP_cons, h.calls]
  sinceReset := by
    have := h.sinceReset
    show s.calls + 1 = callsAtReset diary + (s.hits + 1 + s.misses)
    omega
  hits := by simp [List.takeWhile_cons, h.hits]
  misses := by simp [List.takeWhile_cons, h.misses]
  resolutions := by simp [h.resolutions]
  freezes := by
    show s.freezes = s.thaws + _ + s.ice
    simpa [List.countP_cons] using h.freezes

theorem Balanced.miss (h : s.Balanced diary) : s.count.ask.Balanced (.call false :: diary) where
  calls := by simp [count, ask, List.countP_cons, h.calls]
  sinceReset := by
    have := h.sinceReset
    show s.calls + 1 = callsAtReset diary + (s.hits + (s.misses + 1))
    omega
  hits := by simp [count, ask, List.takeWhile_cons, h.hits]
  misses := by simp [count, ask, List.takeWhile_cons, h.misses]
  resolutions := by simp [count, ask, h.resolutions]
  freezes := by
    show s.freezes = s.thaws + _ + s.ice
    simpa [List.countP_cons] using h.freezes

theorem Balanced.call (h : s.Balanced diary) {q' : Resolver β}
    (hcounted : s.Counted q shape s' q') :
    s'.Balanced (.call (s.serves q.registry shape) :: diary) := by
  cases hcounted with
  | hit hserves hq =>
    rw [hserves]
    exact h.hit.quiet hq
  | miss hserves hq =>
    rw [hserves]
    exact h.miss.quiet hq

theorem Balanced.reset (h : s.Balanced diary) :
    s.reset.Balanced (.reset s.calls (s.phase = .frozen) :: diary) where
  calls := by simpa [Site.reset, List.countP_cons] using h.calls
  sinceReset := rfl
  hits := rfl
  misses := rfl
  resolutions := by simpa [Site.reset] using h.resolutions
  freezes := by
    -- what ice there was goes into the diary
    have hfreezes := h.freezes
    have hcold : s.reset.ice = 0 := ice_of_not_frozen nofun
    rw [hcold, List.countP_cons]
    show s.freezes = s.thaws + (_ + _) + 0
    by_cases hphase : s.phase = .frozen
    · rw [ice_of_frozen hphase] at hfreezes
      simp only [Event.isMelt_reset, hphase, decide_true, if_true]
      omega
    · rw [ice_of_not_frozen hphase] at hfreezes
      simp only [Event.isMelt_reset, hphase, decide_false, Bool.false_eq_true, if_false]
      omega

end Site

end LateBinding
