import LateBinding.Proofs.Coherence
import LateBinding.Proofs.Invalidation

/-!
# Applying a trait

Applying a trait to a class stamps the class and its heirs anew, so what was found for receivers
of these classes is found again. But a trait also changes which parameters the instances of the
class fit as arguments, and how specific parameters are, and what was found for other receivers
keeps its stamp.

After a trait was applied, all calls are right, as long as the hierarchy stays as it is, exactly if
what was found for receivers that do not inherit from the class is still true
(`Engine.applyTrait_seen_iff`). If arguments have always been of declared classes, the same
condition makes them right when more classes are declared.
-/

namespace LateBinding

namespace Engine

variable {β : Type} {g g' : Engine β} {f : Finding β} {c iface : ClassRef}

theorem recalls_withRegistry {r : Registry β} : (g.withRegistry r).Recalls f ↔ g.Recalls f := by
  constructor
  · rintro (⟨hs, hfound⟩ | hmemo)
    · exact .site hs hfound
    · exact .memo hmemo
  · rintro (⟨hs, hfound⟩ | hmemo)
    · exact Recalls.site (g := g.withRegistry r) hs hfound
    · exact .memo hmemo

/-- What is still under a current guard after a trait was applied to a class is what was found
for receivers that do not inherit from it. -/
theorem isCurrent_withRegistry_iff (hg : g.Reachable) {r : Registry β}
    (hr : g.registry.applyTrait c iface = .ok r) (hf : g.Recalls f) :
    f.found.guard.isCurrent r ↔
      f.found.guard.isCurrent g.registry ∧ c ∉ r.hierarchy.chain f.shape.receiver.cls := by
  have hfounded := hg.founded hf
  have hrestamped := Registry.restamped_applyTrait hg.sound hr
  rw [Guard.isCurrent_restamped_iff hrestamped hfounded.issued, hfounded.isFor.1, hrestamped.heirs]

/-- If all calls are right, so is what an engine recalls. -/
theorem Faithful.coherent (hfaithful : g.Faithful) (hg : g.Reachable) : g.Coherent := by
  intro f hf hcur
  -- a call that is answered by the finding is right only if the finding is true
  obtain ⟨receiver, args, hshape, hanswer⟩ := hg.answer_of_recalls hf hcur
  have hreceiver : Receiver.ofValue g.registry receiver = f.shape.receiver :=
    congrArg Shape.receiver hshape
  have hargs : args.map Value.classOf = f.shape.args.toList := by
    rw [← hshape, Shape.ofCall, ArgShape.ofArgs, ArgShape.toList_ofClasses]
  rcases hanswer with ⟨key, s, hs, haccess, hname, hdispatch⟩ | hdecide
  · have hlookup := hfaithful.dispatch key s receiver args hs
    rw [hdispatch, haccess, hname, hargs, hreceiver] at hlookup
    -- the finding is a site's or the memo's, and each of the two answers a call by itself
    exact (Option.some.inj hlookup).symm
  · have hlookup := hfaithful.decideUncached f.access receiver f.name args
    rw [hdecide, hargs, hreceiver] at hlookup
    exact hlookup.symm

/-- After a trait was applied, an engine is coherent if and only if whatever was found for
receivers that do not inherit from the class, and was valid, is true with the trait. -/
theorem coherent_applyTrait_iff (hg : g.Reachable) (hok : (g.applyTrait c iface).1 = .ok ()) :
    (g.applyTrait c iface).2.Coherent ↔
      ∀ f, g.Recalls f → f.found.guard.isCurrent g.registry →
        c ∉ (g.applyTrait c iface).2.registry.hierarchy.chain f.shape.receiver.cls →
        f.Holds (g.applyTrait c iface).2.registry := by
  obtain ⟨r, hr, heq⟩ := onRegistry'_eq_ok hok
  rw [applyTrait, heq]
  constructor
  -- the right side speaks of the engine before, the left of the one after: the stamps tell which
  -- findings are still valid
  · intro hc f hf hcur hchain
    have hf' : (g.withRegistry r).Recalls f := recalls_withRegistry.mpr hf
    exact hc f hf' ((isCurrent_withRegistry_iff hg hr hf).mpr ⟨hcur, hchain⟩)
  · intro hholds f hf hcur
    have hf' := recalls_withRegistry.mp hf
    obtain ⟨hcur', hchain⟩ := (isCurrent_withRegistry_iff hg hr hf').mp hcur
    exact hholds f hf' hcur' hchain

/-- If a trait was applied, all calls are right, while the hierarchy stays as it is, if and only
if whatever was found for receivers that do not inherit from the class, and was valid, is true
with the trait. If arguments have always been known, calls then stay right as well when more
classes are declared. -/
theorem applyTrait_seen_iff (hg : g.Reachable) (hok : (g.applyTrait c iface).1 = .ok ()) :
    ((∀ g', Run Steady (g.applyTrait c iface).2 g' → g'.Faithful) ↔
      ∀ f, g.Recalls f → f.found.guard.isCurrent g.registry →
        c ∉ (g.applyTrait c iface).2.registry.hierarchy.chain f.shape.receiver.cls →
        f.Holds (g.applyTrait c iface).2.registry) ∧
    (ReachableBy Operation.Grounded g →
      ((∀ g', Run Orderly (g.applyTrait c iface).2 g' → g'.Faithful) ↔
        ∀ g', Run Steady (g.applyTrait c iface).2 g' → g'.Faithful)) := by
  have hafter : (g.applyTrait c iface).2.Reachable :=
    hg.perform (show Anything g (.applyTrait c iface) from trivial)
  -- the engine right after the trait decides: faithful there is coherent, and coherence stays
  have hsteady : (∀ g', Run Steady (g.applyTrait c iface).2 g' → g'.Faithful) ↔
      (g.applyTrait c iface).2.Coherent := by
    refine ⟨fun hfaithful => (hfaithful _ .refl).coherent hafter, fun hc g' hrun => ?_⟩
    exact (hc.run_steady hafter hrun).faithful (hafter.run hrun)
  refine ⟨hsteady.trans (coherent_applyTrait_iff hg hok), fun hgrounded => ?_⟩
  have hafter' : ReachableBy Operation.Grounded (g.applyTrait c iface).2 :=
    hgrounded.perform (show Operation.Grounded g (.applyTrait c iface) from trivial)
  rw [hsteady]
  refine ⟨fun hfaithful => (hfaithful _ .refl).coherent hafter, fun hc g' hrun => ?_⟩
  exact (hc.run_orderly hafter' hrun).faithful (hafter.run hrun)

/-- The method was called through a site, with an integer. -/
def sampleIntCall : Engine Unit :=
  (sampleClasses.perform (.openSite 0 .method "m")).perform
    (.dispatch (.numbered 0) sampleReceiver [.int 7])

/-- The site and the memo know one and the same call. -/
theorem recalls_sampleIntCall {f : Finding Unit} (hf : sampleIntCall.Recalls f) :
    f.access = .method ∧ f.name = "m" ∧ f.shape = ⟨.plain ⟨10⟩, .ofArgs [.int 7]⟩ ∧
      sampleIntCall.registry.lookup .method (.plain ⟨10⟩) "m" [.int] = .ok f.found.target := by
  cases hf with
  -- the only site is the one of the call, and its only entry is the call's
  | @site key s _ _ hs hfound =>
    obtain ⟨e, he, hshape, htarget, -⟩ := hfound
    obtain rfl : key = .numbered 0 := List.mem_singleton.mp (Table.mem_keys_of_get? hs)
    cases hs
    rcases he with he | he
    · obtain rfl := List.mem_singleton.mp (Site.mem_entries.mpr he)
      rw [← hshape, ← htarget]
      exact ⟨rfl, rfl, rfl, rfl⟩
    · cases he
  | memo hf =>
    obtain ⟨k, m, hm, rfl⟩ := hf
    -- and the memo was asked once
    obtain rfl : k = ⟨⟨10⟩, "m", .ofArgs [.int 7]⟩ :=
      List.mem_singleton.mp (Table.mem_keys_of_get? hm)
    cases hm
    exact ⟨rfl, rfl, rfl, rfl⟩

/-- The finding that is there is about a receiver that does not inherit from the class. It is true
with the trait, which makes no integer fit the narrower overload, so all calls stay right. -/
theorem applyTrait_seen_sampleIntCall :
    (sampleIntCall.applyTrait ⟨9⟩ ⟨8⟩).1 = .ok () ∧ ReachableBy Operation.Grounded sampleIntCall ∧
    (∃ f, sampleIntCall.Recalls f ∧ f.found.guard.isCurrent sampleIntCall.registry ∧
      ⟨9⟩ ∉ (sampleIntCall.applyTrait ⟨9⟩ ⟨8⟩).2.registry.hierarchy.chain f.shape.receiver.cls) ∧
    (∀ g', Run Steady (sampleIntCall.applyTrait ⟨9⟩ ⟨8⟩).2 g' → g'.Faithful) ∧
    ∀ g', Run Orderly (sampleIntCall.applyTrait ⟨9⟩ ⟨8⟩).2 g' → g'.Faithful := by
  have hgrounded : ReachableBy Operation.Grounded sampleIntCall := by
    have hclasses : ReachableBy Operation.Grounded sampleClasses :=
      reachableBy_sampleClasses fun _ _ _ => trivial
    have hsite : ReachableBy Operation.Grounded (sampleClasses.perform (.openSite 0 .method "m")) :=
      hclasses.perform trivial
    -- the call names an integer, so no object is mentioned that could be unknown
    refine hsite.perform fun v hv o ho => ?_
    rw [List.mem_singleton.mp hv] at ho
    cases ho
  have hok : (sampleIntCall.applyTrait ⟨9⟩ ⟨8⟩).1 = .ok () := rfl
  have hsame : (sampleIntCall.applyTrait ⟨9⟩ ⟨8⟩).2.registry.lookup .method (.plain ⟨10⟩) "m"
      [.int] = sampleIntCall.registry.lookup .method (.plain ⟨10⟩) "m" [.int] := rfl
  obtain ⟨hsteady, horderly⟩ := applyTrait_seen_iff hgrounded.reachable hok
  -- what the memo and the site found is what looking up with the trait gives too
  have hfaithful := hsteady.mpr fun f hf _ _ => by
    obtain ⟨haccess, hname, hshape, hlookup⟩ := recalls_sampleIntCall hf
    rw [Finding.Holds, haccess, hname, hshape]
    exact hsame.trans hlookup
  refine ⟨hok, hgrounded, ?_, hfaithful, (horderly hgrounded).mpr hfaithful⟩
  refine ⟨_, .memo ⟨⟨⟨10⟩, "m", .ofArgs [.int 7]⟩, _, rfl, rfl⟩, rfl, ?_⟩
  decide

/-- The parameters of the method that was decided on. -/
def answerParams {β : Type} (answer : Except DispatchError (Target β)) :
    Option (List ParamKind) :=
  (answer.toOption.bind Target.method?).map (·.signature.params)

/-- The trait makes the argument of the sample call fit the narrower overload, but a repetition
of the call runs the wider one, through the site and without it. -/
theorem applyTrait_unseen_sampleCall : sampleCall.Reachable ∧
    (sampleCall.applyTrait ⟨9⟩ ⟨8⟩).1 = .ok () ∧
    ((sampleCall.applyTrait ⟨9⟩ ⟨8⟩).2.dispatch (.numbered 0) sampleReceiver
      [sampleArgument]).1.map answerParams = some (some [.any]) ∧
    answerParams ((sampleCall.applyTrait ⟨9⟩ ⟨8⟩).2.decideUncached .method sampleReceiver "m"
      [sampleArgument]).1 = some [.any] ∧
    answerParams ((sampleCall.applyTrait ⟨9⟩ ⟨8⟩).2.registry.lookup .method (.plain ⟨10⟩) "m"
      [⟨9⟩]) = some [.ofClass ⟨8⟩] := by
  refine ⟨reachable_sampleCall, rfl, ?_, ?_, ?_⟩ <;> decide

end Engine

end LateBinding
