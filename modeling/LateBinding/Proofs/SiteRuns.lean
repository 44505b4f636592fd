import LateBinding.Proofs.Runs
import LateBinding.Proofs.Sites

/-!
# The call sites of an engine

An operation does nothing to a site, or makes a call through it, or resets it (`Moves`); new
sites are cold. So all sites of an engine are valid at all times (`Reachable.valid`), and their
phases change as calls and resets change them (`Reachable.site_condition`).
-/

namespace LateBinding

namespace Engine

variable {β : Type} {g : Engine β} {key : SiteKey} {s s' : Site β}

/-- The operation resets the site of a key. -/
def Operation.Resets (key : SiteKey) (op : Operation β) : Prop :=
  op = .resetSite key ∨ op = .resetSites

/-- What an operation can do to a site: nothing, a call, or a reset. -/
inductive Moves (g : Engine β) (op : Operation β) (key : SiteKey) (s : Site β) : Site β → Prop
  | rest : Moves g op key s s
  | call {receiver args} (hop : op = .dispatch key receiver args) :
    Moves g op key s (s.dispatch g.policy g.resolver receiver args).2.1
  | reset (hreset : op.Resets key) : Moves g op key s s.reset

theorem get?_resetSites : g.resetSites.sites.get? key =
    (g.sites.get? key).map fun s => match key with
      | .numbered _ => s.reset
      | .detached _ => s := by
  simp only [resetSites, Table.get?]
  induction g.sites.entries with
  | nil => rfl
  | cons p rest ih =>
    obtain ⟨k, s⟩ := p
    rw [List.map_cons]
    by_cases hk : k = key
    · subst hk
      cases k <;> simp [Table.find]
    · cases k <;> simpa [Table.find, hk] using ih

/-- Serials of detached sites are handed out in order. -/
def Unused (g : Engine β) : Prop :=
  ∀ n, g.nextSerial ≤ n → g.sites.get? (.detached n) = none

/-- What an operation makes of the site of a key: it can create it, drop it, call it or reset it. -/
def Operation.siteAfter (op : Operation β) (g : Engine β) (key : SiteKey) : Option (Site β) :=
  match op with
  | .openSite id access name =>
    if .numbered id = key then
      some ((g.sites.get? key).getD (.create id access name g.settings.cacheCapacity))
    else g.sites.get? key
  | .attach id access name capacity =>
    if .detached g.nextSerial = key then some (.create id access name capacity)
    else g.sites.get? key
  | .drop key' => if key' = key then none else g.sites.get? key
  | .dispatch key' receiver args =>
    if key' = key then
      (g.sites.get? key).map fun s => (s.dispatch g.policy g.resolver receiver args).2.1
    else g.sites.get? key
  | .resetSite key' => if key' = key then (g.sites.get? key).map (·.reset) else g.sites.get? key
  | .resetSites => (g.sites.get? key).map fun s => match key with
      | .numbered _ => s.reset
      | .detached _ => s
  | _ => g.sites.get? key

theorem get?_perform (g : Engine β) (op : Operation β) (key : SiteKey) :
    (g.perform op).sites.get? key = op.siteAfter g key := by
  -- operations on the registry alone never reach the table of sites
  cases op with
  | define | changeClass | changeObject | applyCategory | applyTrait | invalidate | membersOf
    | versionOf =>
    rw [perform_of_change rfl]
    split <;> rfl
  | resolve | resolveClass | clearMemo | setPolicy => rfl
  | openSite id access name =>
    simp only [perform, openSite, Operation.siteAfter]
    split
    · next s hs =>
      -- asked for again, the site is left as it is, whether it fits the question or not
      have hsame : (if .numbered id = key then some ((g.sites.get? key).getD
          (.create id access name g.settings.cacheCapacity)) else g.sites.get? key) =
          g.sites.get? key := by
        split
        · next hkey => rw [← hkey, hs, Option.getD_some]
        · rfl
      rw [hsame]
      split <;> rfl
    · next hnone =>
      rw [Table.get?_insert]
      split
      · next hkey => rw [← hkey, hnone, Option.getD_none]
      · rfl
  | attach => exact Table.get?_insert ..
  | drop => exact Table.get?_erase ..
  | dispatch key' receiver args =>
    simp only [perform, dispatch, Operation.siteAfter]
    split
    · next hnone =>
      split
      · next hkey => rw [← hkey, hnone, Option.map_none]
      · rfl
    · next s hs =>
      rw [Table.get?_insert]
      split
      · next hkey => rw [← hkey, hs, Option.map_some]
      · rfl
  | resetSite => exact Table.get?_modify ..
  | resetSites => cases key <;> exact get?_resetSites

/-- After an operation, a site is what the operation makes of the one that was there, or it
was just created. -/
theorem sites_perform (hg : g.Unused) {op : Operation β}
    (hs' : (g.perform op).sites.get? key = some s') :
    (∃ s, g.sites.get? key = some s ∧ Moves g op key s s') ∨
      g.sites.get? key = none ∧ (∃ id access name capacity, s' = .create id access name capacity) ∧
        ∀ n, key = .detached n → n < (g.perform op).nextSerial := by
  rw [get?_perform] at hs'
  -- where `siteAfter` leaves the site as it was it rests; where it makes one there was none
  cases op with
  | openSite id access name =>
    simp only [Operation.siteAfter] at hs'
    split at hs'
    · next hkey =>
      cases hs : g.sites.get? key with
      | some s =>
        rw [hs] at hs'
        cases hs'
        exact .inl ⟨s, rfl, .rest⟩
      | none =>
        rw [hs] at hs'
        -- a new site with a number is no detached one, so it says nothing of serials
        cases hs'
        refine .inr ⟨rfl, ⟨id, access, name, _, rfl⟩, fun n hn => ?_⟩
        rw [← hkey] at hn
        cases hn
    · exact .inl ⟨s', hs', .rest⟩
  | attach id access name capacity =>
    simp only [Operation.siteAfter] at hs'
    split at hs'
    · next hkey =>
      cases hs'
      -- the next serial is unused, so the detached site is new
      refine .inr ⟨hkey ▸ hg _ (Nat.le_refl _), ⟨id, access, name, capacity, rfl⟩, fun n hn => ?_⟩
      rw [← hkey] at hn
      cases hn
      exact Nat.lt_succ_self _
    · exact .inl ⟨s', hs', .rest⟩
  | drop key' =>
    simp only [Operation.siteAfter] at hs'
    split at hs'
    · cases hs'
    · exact .inl ⟨s', hs', .rest⟩
  | dispatch key' receiver args =>
    simp only [Operation.siteAfter] at hs'
    split at hs'
    · next hkey =>
      obtain ⟨s, hs, rfl⟩ := Option.map_eq_some_iff.mp hs'
      exact .inl ⟨s, hs, .call (by rw [hkey])⟩
    · exact .inl ⟨s', hs', .rest⟩
  | resetSite key' =>
    simp only [Operation.siteAfter] at hs'
    split at hs'
    · next hkey =>
      obtain ⟨s, hs, rfl⟩ := Option.map_eq_some_iff.mp hs'
      exact .inl ⟨s, hs, .reset (.inl (by rw [hkey]))⟩
    · exact .inl ⟨s', hs', .rest⟩
  | resetSites =>
    obtain ⟨s, hs, hs'⟩ := Option.map_eq_some_iff.mp hs'
    cases key with
    -- detached sites are passed by when all are reset
    | numbered id => exact .inl ⟨s, hs, hs' ▸ .reset (.inr rfl)⟩
    | detached serial => exact .inl ⟨s, hs, hs' ▸ .rest⟩
  | _ => exact .inl ⟨s', hs', .rest⟩

theorem nextSerial_le_perform (op : Operation β) : g.nextSerial ≤ (g.perform op).nextSerial := by
  rw [(frame_perform g op).2]
  split
  · exact Nat.le_succ _
  · exact Nat.le_refl _

theorem Unused.perform (hg : g.Unused) (op : Operation β) : (g.perform op).Unused := by
  intro n hn
  by_contra hsome
  obtain ⟨s', hs'⟩ := Option.ne_none_iff_exists'.mp hsome
  rcases sites_perform hg hs' with ⟨s, hs, -⟩ | ⟨-, -, hlt⟩
  · rw [hg n (Nat.le_trans (nextSerial_le_perform op) hn)] at hs
    cases hs
  · exact Nat.not_lt_of_le hn (hlt n rfl)

theorem Reachable.unused (hg : g.Reachable) : g.Unused :=
  hg.invariant (fun _ _ _ => rfl) fun _ op _ h => h.perform op

/-- Every site of every engine is valid. -/
theorem Reachable.valid (hg : g.Reachable) (hs : g.sites.get? key = some s) : s.Valid := by
  suffices hinv : g.Unused ∧ ∀ key s, g.sites.get? key = some s → s.Valid from hinv.2 key s hs
  refine hg.invariant (P := fun g => g.Unused ∧ ∀ key s, g.sites.get? key = some s → s.Valid)
    (fun _ => ⟨fun _ _ => rfl, nofun⟩) fun g op _ ⟨hunused, hvalid⟩ => ⟨hunused.perform op, ?_⟩
  intro key s' hs'
  rcases sites_perform hunused hs' with ⟨s, hs, hmoves⟩ | ⟨-, ⟨id, access, name, capacity, rfl⟩, -⟩
  · cases hmoves with
    | rest => exact hvalid key _ hs
    | call => exact (hvalid key s hs).dispatchShape.1
    | reset => exact (hvalid key s hs).reset
  · exact Site.valid_create _ _ _ _

/-! ## Changes of phase -/

/-- The operation does not reset the site of a key, and leaves it there and not frozen. -/
def Thawed (key : SiteKey) (g : Engine β) (op : Operation β) : Prop :=
  ¬ op.Resets key ∧ ∃ s, (g.perform op).sites.get? key = some s ∧ s.phase ≠ .frozen

/-- An operation moves a site on as a call may, or resets it. -/
theorem follows_of_moves {op : Operation β} (hs : s.Valid) (hmoves : Moves g op key s s') :
    s'.phase.Follows s.phase ∨ op.Resets key ∧ s' = s.reset := by
  cases hmoves with
  | rest => exact .inl (Phase.follows_refl _)
  | call => exact .inl hs.dispatchShape.2
  | reset h => exact .inr ⟨h, rfl⟩

/-- A site that several shapes were met at stays so, or gives up, as long as it does not
freeze. -/
theorem phase_of_thawed (hg : g.Reachable) {g' : Engine β} (hrun : Run (Thawed key) g g')
    (hs : g.sites.get? key = some s) (hphase : s.phase = .polymorphic)
    (hs' : g'.sites.get? key = some s') : s'.phase = .polymorphic ∨ s'.phase = .megamorphic := by
  -- what a polymorphic site may become is an invariant of the run, along with reachability
  suffices hinv : g'.Reachable ∧ ∃ s, g'.sites.get? key = some s ∧
      (s.phase = .polymorphic ∨ s.phase = .megamorphic) by
    obtain ⟨-, s'', hs'', h⟩ := hinv
    rw [hs'] at hs''
    exact Option.some.inj hs'' ▸ h
  refine hrun.preserves (P := fun g => g.Reachable ∧ ∃ s, g.sites.get? key = some s ∧
    (s.phase = .polymorphic ∨ s.phase = .megamorphic)) ?_ ⟨hg, s, hs, .inl hphase⟩
  rintro g op ⟨hreset, s', hs', hfrozen⟩ ⟨hg, s, hs, hphase⟩
  refine ⟨hg.perform trivial, s', hs', ?_⟩
  rcases sites_perform hg.unused hs' with ⟨s₀, hs₀, hmoves⟩ | ⟨hnone, -⟩
  · -- a polymorphic site can give up or freeze, and freezing is excluded
    rw [hs] at hs₀
    cases hs₀
    obtain ⟨hmega, hcold, hmono⟩ :=
      (follows_of_moves (hg.valid hs) hmoves).resolve_right fun h => hreset h.1
    rcases hphase with hphase | hphase
    · cases h : s'.phase with
      | cold => cases hphase.symm.trans (hcold h)
      | monomorphic => exact absurd h (hmono hphase)
      | polymorphic => exact .inl rfl
      | megamorphic => exact .inr rfl
      | frozen => exact absurd h hfrozen
    · exact .inr (hmega hphase)
  · rw [hs] at hnone
    cases hnone

/-- The condition of a call site, whatever happened to the engine: its slots are as the phase
has them; only a reset makes it cold again or ends its being megamorphic; and if it is
polymorphic and later monomorphic, it was reset or frozen in between. -/
theorem Reachable.site_condition (hg : g.Reachable) (hs : g.sites.get? key = some s) :
    s.Consistent ∧
    (∀ op s', (g.perform op).sites.get? key = some s' →
      (s.phase = .megamorphic → s'.phase = .megamorphic ∨ op.Resets key) ∧
      (s'.phase = .cold → s.phase = .cold ∨ op.Resets key) ∧
      (s.phase = .polymorphic → s'.phase ≠ .monomorphic)) ∧
    ∀ g' s', Run (Thawed key) g g' → g'.sites.get? key = some s' →
      s.phase = .polymorphic → s'.phase ≠ .monomorphic := by
  refine ⟨(hg.valid hs).consistent, fun op s' hs' => ?_, fun g' s' hrun hs' hphase hmono => ?_⟩
  · rcases sites_perform hg.unused hs' with ⟨s₀, hs₀, hmoves⟩ | ⟨hnone, -⟩
    · rw [hs] at hs₀
      cases hs₀
      -- the phase moves by the rules of calls, or this was a reset of the site
      rcases follows_of_moves (hg.valid hs) hmoves with ⟨hmega, hcold, hmono⟩ | ⟨hreset, rfl⟩
      · exact ⟨fun h => .inl (hmega h), fun h => .inl (hcold h), hmono⟩
      · exact ⟨fun _ => .inr hreset, fun _ => .inr hreset, fun _ => by simp [Site.reset]⟩
    · rw [hs] at hnone
      cases hnone
  · rcases phase_of_thawed hg hrun hs hphase hs' with h | h <;> cases h.symm.trans hmono

/-- The site of the sample call is there, and consistent. -/
theorem site_condition_sampleCall : ∃ s, sampleCall.sites.get? (.numbered 0) = some s ∧
    s.phase = .monomorphic ∧ s.Consistent := by
  obtain ⟨s, hs, hphase⟩ : ∃ s, sampleCall.sites.get? (.numbered 0) = some s ∧
      s.phase = .monomorphic := ⟨_, rfl, by decide⟩
  exact ⟨s, hs, hphase, (reachable_sampleCall.site_condition hs).1⟩

end Engine

end LateBinding
