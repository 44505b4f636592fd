import LateBinding.Proofs.Growth
import LateBinding.Proofs.Recall

/-!
# Coherence

An engine is coherent if whatever it recalls under a current guard is what looking up yields
now. As long as no trait is applied, an engine is coherent at all times: changes of members
stamp anew what they concern, and declaring a class takes no answer back. So a call through a
site, in whatever phase, and a call without one answer as if nothing were ever remembered
(`Engine.ReachableBy.dispatch_eq_lookup`).
-/

namespace LateBinding.Engine

variable {β : Type} {g g' : Engine β} {op : Operation β} {f : Finding β} {key : SiteKey}
variable {s : Site β} {access : Access} {name : String} {receiver : Value} {args : List Value}

/-- What is recalled under a current guard holds. -/
def Coherent (g : Engine β) : Prop :=
  ∀ f, g.Recalls f → f.found.guard.isCurrent g.registry → f.Holds g.registry

/-- The operation dispatches on known arguments, and applies no trait. -/
def Orderly (g : Engine β) (op : Operation β) : Prop :=
  op.Grounded g ∧ ∀ c iface, op ≠ .applyTrait c iface

/-- The operation leaves the hierarchy as it is: it declares no class and applies no trait. -/
def Steady (_ : Engine β) (op : Operation β) : Prop :=
  (∀ d methods, op ≠ .define d methods) ∧ ∀ c iface, op ≠ .applyTrait c iface

/-! ## What operations preserve -/

/-- What holds under a current guard keeps holding while the guard stays current. If a class is
declared, the arguments must have been known. -/
theorem holds_perform (hg : g.Reachable) (htrait : ∀ c iface, op ≠ .applyTrait c iface)
    (hrooted : (∃ d methods, op = .define d methods) → f.Rooted g.registry)
    (hfounded : f.Founded g.registry)
    (hholds : f.found.guard.isCurrent g.registry → f.Holds g.registry)
    (hcur : f.found.guard.isCurrent (g.perform op).registry) : f.Holds (g.perform op).registry := by
  have hsound := hg.sound
  have hbefore := hholds (Guard.isCurrent_of_later (later_perform hsound op) hfounded.issued hcur)
  -- a declaration changes the hierarchy under old stamps, but takes no answer back
  by_cases hdefine : ∃ d methods, op = .define d methods
  · have hargs := hrooted hdefine
    obtain ⟨d, methods, rfl⟩ := hdefine
    rcases registry_perform g (.define d methods) with ⟨f, hf, hok⟩ | ⟨cs, hcs⟩
    · cases hf
      obtain ⟨p, hp, hregistry⟩ := Registry.define_of_map hok
      rw [Finding.Holds, ← hregistry]
      exact Registry.lookup_define hsound hp hfounded.receiver hargs hbefore
    -- a declaration that was refused at most brings cells into being
    · rw [Finding.Holds, hcs, Registry.lookup_materializeAll]
      exact hbefore
  -- what a current guard vouches for, looking up cannot tell from before
  · have hvouches := vouches_perform hsound (fun d methods h => hdefine ⟨d, methods, h⟩) htrait
    rw [Finding.Holds, hvouches.lookup hfounded.isFor hfounded.issued hcur]
    exact hbefore

theorem Coherent.perform (hc : g.Coherent) (hg : g.Reachable)
    (htrait : ∀ c iface, op ≠ .applyTrait c iface)
    (hrooted : (∃ d methods, op = .define d methods) → ∀ f, g.Recalls f → f.Rooted g.registry) :
    (g.perform op).Coherent := by
  intro f hf hcur
  -- a finding of before is still true, and a new one was made just now
  rcases recalls_perform hg hf with hold | ⟨_, _, -, hnew⟩
  · exact holds_perform hg htrait (fun h => hrooted h f hold) (hg.founded hold) (hc f hold) hcur
  · exact hnew.holds

/-- Coherence, once there, stays while the hierarchy is as it was. -/
theorem Coherent.run_steady (hc : g.Coherent) (hg : g.Reachable) (hrun : Run Steady g g') :
    g'.Coherent := by
  suffices h : g'.Reachable ∧ g'.Coherent from h.2
  refine hrun.preserves (P := fun g => g.Reachable ∧ g.Coherent) ?_ ⟨hg, hc⟩
  rintro g op ⟨hdefine, htrait⟩ ⟨hg, hc⟩
  refine ⟨hg.perform trivial, hc.perform hg htrait ?_⟩
  rintro ⟨d, methods, heq⟩
  exact absurd heq (hdefine d methods)

/-- If all arguments are known, it also stays when classes are declared. -/
theorem Coherent.run_orderly (hc : g.Coherent) (hg : ReachableBy Operation.Grounded g)
    (hrun : Run Orderly g g') : g'.Coherent := by
  suffices h : ReachableBy Operation.Grounded g' ∧ g'.Coherent from h.2
  refine hrun.preserves (P := fun g => ReachableBy Operation.Grounded g ∧ g.Coherent) ?_ ⟨hg, hc⟩
  rintro g op ⟨hgrounded, htrait⟩ ⟨hg, hc⟩
  exact ⟨hg.perform hgrounded, hc.perform hg.reachable htrait fun _ _ => hg.rooted⟩

theorem ReachableBy.coherent (hg : ReachableBy Orderly g) : g.Coherent := by
  obtain ⟨settings, hrun⟩ := hg
  have hfresh : (build settings : Engine β).Coherent :=
    fun _ hf => absurd hf (not_recalls_build settings)
  exact hfresh.run_orderly ⟨settings, .refl⟩ hrun

/-! ## Answers -/

/-- What a coherent engine answers is what looking up yields. -/
theorem Answers.eq_lookup (hc : g.Coherent) {answer : Except DispatchError (Target β)}
    (h : g.Answers access name receiver args answer) :
    answer = g.registry.lookup access (.ofValue g.registry receiver) name
      (args.map Value.classOf) := by
  -- either it was looked up just now, or it was recalled under a guard that is current
  rcases h with h | ⟨found, hrecalls, hcur, rfl⟩
  · exact h
  · have hholds := hc _ hrecalls hcur
    simp only [Finding.Holds, Shape.ofCall, ArgShape.ofArgs, ArgShape.toList_ofClasses] at hholds
    exact hholds.symm

/-- Every call, with or without a site, decides what looking up yields now. -/
structure Faithful (g : Engine β) : Prop where
  dispatch : ∀ key s receiver args, g.sites.get? key = some s →
    (g.dispatch key receiver args).1 = some (g.registry.lookup s.access
      (.ofValue g.registry receiver) s.name (args.map Value.classOf))
  decideUncached : ∀ access receiver name args, (g.decideUncached access receiver name args).1 =
    g.registry.lookup access (.ofValue g.registry receiver) name (args.map Value.classOf)

theorem Coherent.faithful (hc : g.Coherent) (hg : g.Reachable) : g.Faithful where
  dispatch key s receiver args hs := by
    obtain ⟨answer, hanswer, h⟩ := dispatch_answers hg hs
    rw [hanswer, h.eq_lookup hc]
  decideUncached access _ name _ := (decideUncached_answers hg access name).eq_lookup hc

/-- A resolution with nothing remembered is a lookup. -/
theorem decideUncached_clearMemo (g : Engine β) (access : Access) (receiver : Value)
    (name : String) (args : List Value) :
    (g.clearMemo.decideUncached access receiver name args).1 =
      g.registry.lookup access (.ofValue g.registry receiver) name (args.map Value.classOf) := by
  obtain ⟨hanswer, -, -⟩ := g.clearMemo.resolver.resolve_answer access
    (.ofValue g.clearMemo.registry receiver) name (.ofArgs args)
  rw [decideUncached_fst]
  rcases hanswer with hlookup | ⟨found, -, ⟨k, m, hm, -⟩, -⟩
  · rw [hlookup, ArgShape.ofArgs, ArgShape.toList_ofClasses]
    rfl
  -- a memo that was cleared has no entry to answer with
  · cases hm

/-- Without traits, every call decides what looking up yields at that moment, with or without a
site and whatever is remembered: the same target, or the same error. So does a resolution after
forgetting everything. -/
theorem ReachableBy.dispatch_eq_lookup (hg : ReachableBy Orderly g) (receiver : Value)
    (args : List Value) :
    (∀ key s, g.sites.get? key = some s → (g.dispatch key receiver args).1 =
      some (g.registry.lookup s.access (.ofValue g.registry receiver) s.name
        (args.map Value.classOf))) ∧
    ∀ access name,
      (g.decideUncached access receiver name args).1 =
        g.registry.lookup access (.ofValue g.registry receiver) name (args.map Value.classOf) ∧
      (g.clearMemo.decideUncached access receiver name args).1 =
        g.registry.lookup access (.ofValue g.registry receiver) name (args.map Value.classOf) := by
  have hfaithful := hg.coherent.faithful hg.reachable
  refine ⟨fun key s hs => hfaithful.dispatch key s receiver args hs, fun access name => ?_⟩
  exact ⟨hfaithful.decideUncached access receiver name args,
    decideUncached_clearMemo g access receiver name args⟩

theorem known_sampleArgument {v : Value} (hv : v ∈ [sampleArgument]) : sampleClasses.Known v := by
  rintro o rfl
  simp only [sampleArgument, List.mem_singleton, Value.object.injEq] at hv
  subst hv
  decide

/-- A repetition of the sample call is served by the site, and rightly so. -/
theorem dispatch_eq_lookup_sampleCall : ReachableBy Orderly sampleCall ∧
    (sampleCall.dispatch (.numbered 0) sampleReceiver [sampleArgument]).1 =
      some (sampleCall.registry.lookup .method (.plain ⟨10⟩) "m" [⟨9⟩]) := by
  have hclasses : ReachableBy Orderly sampleClasses :=
    reachableBy_sampleClasses fun _ _ _ => ⟨trivial, nofun⟩
  have hsite : ReachableBy Orderly (sampleClasses.perform (.openSite 0 .method "m")) :=
    hclasses.perform ⟨trivial, nofun⟩
  have hreach : ReachableBy Orderly sampleCall :=
    hsite.perform ⟨fun v hv => known_sampleArgument hv, nofun⟩
  obtain ⟨s, hs, haccess, hname⟩ : ∃ s, sampleCall.sites.get? (.numbered 0) = some s ∧
      s.access = .method ∧ s.name = "m" := ⟨_, rfl, rfl, rfl⟩
  refine ⟨hreach, ?_⟩
  rw [(hreach.dispatch_eq_lookup sampleReceiver [sampleArgument]).1 _ s hs, haccess, hname]
  rfl

end LateBinding.Engine
